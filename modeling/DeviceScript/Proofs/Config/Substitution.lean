import DeviceScript.Proofs.Config.Cycles
/-!
# Settings with everything put in its place

What should be loaded for a document with tags in it?  `Loader.Yields` says so without a loader: a
tree with every include replaced by what the included file yields, every variable by what it stands
for, and everything else as it was; or the error of the first tag in the order of the document that
cannot be replaced, an included file being read where its tag stands.  Where an included file is
looked for is a parameter of that.

A load comes to just that (`Loader.loads_what_is_yielded`), unless files are nested so that no such
tree exists.  The induction is on how deep includes are nested, with one on the value of a file
inside, and a document yields no more than one result (`Loader.Yields.unique`).

The place of an included file should be its path taken from the directory of the file that the tag
is in.  That is where it is looked for when the base directory of the load is absolute.  From a
relative base directory the path is taken once more, and what is loaded is not what stands next to
the tag (`Loader.exists_included_elsewhere`).
-/

namespace DeviceScript

open Yaml (Value)
open ConfigError

/-- A value that has no parts. -/
def Yaml.Value.IsScalar : Value → Prop
  | .sequence _ | .mapping _ | .tagged _ _ => False
  | _ => True

namespace Loader

/-! ## 1. What a document yields -/

mutual

/-- What a value from the file `origin` yields.  `place` says where a file is that is included. -/
inductive Yields (s : Surroundings) (place : Path → Path → Path) :
    Path → Value → Except ConfigError Value → Prop
  | scalar {origin : Path} {v : Value} (h : v.IsScalar) : Yields s place origin v (.ok v)
  | sequence {origin : Path} {items : List Value} {r : Except ConfigError (List Value)}
      (h : YieldsAll s place origin items r) :
      Yields s place origin (.sequence items) (r.map .sequence)
  /-- Keys are kept, and so is their order. -/
  | mapping {origin : Path} {entries : List (Value × Value)} {r : Except ConfigError (List Value)}
      (h : YieldsAll s place origin (entries.map (·.2)) r) :
      Yields s place origin (.mapping entries)
        (r.map fun values => .mapping ((entries.map (·.1)).zip values))
  | file {origin target : Path} {text : String} {v : Value} {r : Except ConfigError Value}
      (hread : s.read (place origin target) = .ok text) (hyaml : Yaml.read? text = some v)
      (h : Yields s place (place origin target) v r) :
      Yields s place origin (.tagged "include" (.text target)) r
  | malformed {origin target : Path} {text : String}
      (hread : s.read (place origin target) = .ok text) (hyaml : Yaml.read? text = none) :
      Yields s place origin (.tagged "include" (.text target))
        (.error (.malformed (place origin target)))
  | unreadable {origin target : Path} {e : FileError}
      (hread : s.read (place origin target) = .error e) :
      Yields s place origin (.tagged "include" (.text target))
        (.error (.unreadable (place origin target) e))
  | badInclude {origin : Path} {v : Value} (h : ∀ target, v ≠ .text target) :
      Yields s place origin (.tagged "include" v) (.error (.badInclude origin v))
  | known {origin : Path} {name raw : String} (h : s.environment name = some raw) :
      Yields s place origin (.tagged "env_var" (.text name)) (.ok (variableValue raw))
  | missing {origin : Path} {name : String} (h : s.environment name = none) :
      Yields s place origin (.tagged "env_var" (.text name)) (.error (.missingVariable name))
  | badName {origin : Path} {v : Value} (h : ∀ name, v ≠ .text name) :
      Yields s place origin (.tagged "env_var" v) (.error .badVariableName)
  | unsupported {origin : Path} {tag : String} {v : Value} (hi : tag ≠ "include")
      (hv : tag ≠ "env_var") :
      Yields s place origin (.tagged tag v) (.error (.unsupportedTag tag))

/-- What values from the file `origin` yield one after the other, up to the first error. -/
inductive YieldsAll (s : Surroundings) (place : Path → Path → Path) :
    Path → List Value → Except ConfigError (List Value) → Prop
  | nil {origin : Path} : YieldsAll s place origin [] (.ok [])
  | cons {origin : Path} {v w : Value} {rest : List Value} {r : Except ConfigError (List Value)}
      (h : Yields s place origin v (.ok w)) (hr : YieldsAll s place origin rest r) :
      YieldsAll s place origin (v :: rest) (r.map (w :: ·))
  | error {origin : Path} {v : Value} {rest : List Value} {e : ConfigError}
      (h : Yields s place origin v (.error e)) : YieldsAll s place origin (v :: rest) (.error e)

end

/-- What a text yields as the content of the file `origin`. -/
def TextYields (s : Surroundings) (place : Path → Path → Path) (text : String) (origin : Path)
    (r : Except ConfigError Value) : Prop :=
  Yaml.read? text = none ∧ r = .error (.malformed origin) ∨
    ∃ v, Yaml.read? text = some v ∧ Yields s place origin v r

/-- What a file yields. -/
def FileYields (s : Surroundings) (place : Path → Path → Path) (p : Path)
    (r : Except ConfigError Value) : Prop :=
  (∃ e, s.read p = .error e ∧ r = .error (.unreadable p e)) ∨
    ∃ text, s.read p = .ok text ∧ TextYields s place text p r

/-- What a value with a tag yields. -/
def TaggedYields (s : Surroundings) (place : Path → Path → Path) (origin : Path) (tag : String)
    (v : Value) (r : Except ConfigError Value) : Prop :=
  if tag = "include" then
    match v with
    | .text target => FileYields s place (place origin target) r
    | v => r = .error (.badInclude origin v)
  else if tag = "env_var" then
    match v with
    | .text name =>
      match s.environment name with
      | some raw => r = .ok (variableValue raw)
      | none => r = .error (.missingVariable name)
    | _ => r = .error .badVariableName
  else r = .error (.unsupportedTag tag)

/-! ## 2. One result -/

section Unique

variable {s : Surroundings} {place place' : Path → Path → Path} {origin target p : Path}
  {v w : Value} {items : List Value} {entries : List (Value × Value)} {tag name text : String}
  {r r' : Except ConfigError Value} {rs rs' : Except ConfigError (List Value)}

/-- An include that names no file yields an error. -/
theorem taggedYields_include_iff (h : ∀ target, v ≠ .text target) :
    TaggedYields s place origin "include" v r ↔ r = .error (.badInclude origin v) := by
  unfold TaggedYields
  rw [if_pos rfl]
  split
  · exact absurd rfl (h _)
  · exact Iff.rfl

/-- A variable yields its value, if it has one. -/
theorem taggedYields_variable_iff :
    TaggedYields s place origin "env_var" (.text name) r ↔
      r = (match s.environment name with
        | some raw => .ok (variableValue raw)
        | none => .error (.missingVariable name)) := by
  unfold TaggedYields
  rw [if_neg (by decide), if_pos rfl]
  simp only
  split <;> exact Iff.rfl

theorem taggedYields_env_var_iff (h : ∀ name, v ≠ .text name) :
    TaggedYields s place origin "env_var" v r ↔ r = .error .badVariableName := by
  unfold TaggedYields
  rw [if_neg (by decide), if_pos rfl]
  split
  · exact absurd rfl (h _)
  · exact Iff.rfl

/-- Other tags yield an error. -/
theorem taggedYields_of_unsupported (hi : tag ≠ "include") (hv : tag ≠ "env_var") :
    TaggedYields s place origin tag v r ↔ r = .error (.unsupportedTag tag) := by
  unfold TaggedYields
  rw [if_neg hi, if_neg hv]

/-- A value that is no text is another than any text. -/
theorem text_or_ne (v : Value) : (∃ text, v = .text text) ∨ ∀ text, v ≠ .text text := by
  cases v with
  | text text => exact .inl ⟨text, rfl⟩
  | _ => exact .inr nofun

theorem Yields.tagged (h : Yields s place origin (.tagged tag v) r) :
    TaggedYields s place origin tag v r := by
  cases h with
  | scalar h => cases h
  | file hread hyaml h => exact .inr ⟨_, hread, .inr ⟨_, hyaml, h⟩⟩
  | malformed hread hyaml => exact .inr ⟨_, hread, .inl ⟨hyaml, rfl⟩⟩
  | unreadable hread => exact .inl ⟨_, hread, rfl⟩
  | badInclude h => exact (taggedYields_include_iff h).mpr rfl
  | known h => exact taggedYields_variable_iff.mpr (by rw [h])
  | missing h => exact taggedYields_variable_iff.mpr (by rw [h])
  | badName h => exact (taggedYields_env_var_iff h).mpr rfl
  | unsupported hi hv => exact (taggedYields_of_unsupported hi hv).mpr rfl

theorem TaggedYields.yields (h : TaggedYields s place origin tag v r) :
    Yields s place origin (.tagged tag v) r := by
  by_cases hi : tag = "include"
  · subst hi
    obtain ⟨target, rfl⟩ | hv := text_or_ne v
    · obtain ⟨e, hread, rfl⟩ | ⟨text, hread, ⟨hyaml, rfl⟩ | ⟨v, hyaml, h⟩⟩ := h
      · exact .unreadable hread
      · exact .malformed hread hyaml
      · exact .file hread hyaml h
    · rw [(taggedYields_include_iff hv).mp h]
      exact .badInclude hv
  · by_cases he : tag = "env_var"
    · subst he
      obtain ⟨name, rfl⟩ | hv := text_or_ne v
      · rw [taggedYields_variable_iff.mp h]
        cases hraw : s.environment name with
        | some raw => exact .known hraw
        | none => exact .missing hraw
      · rw [(taggedYields_env_var_iff hv).mp h]
        exact .badName hv
    · rw [(taggedYields_of_unsupported hi he).mp h]
      exact .unsupported hi he

/-- **Tags by themselves.** -/
theorem yields_tagged_iff :
    Yields s place origin (.tagged tag v) r ↔ TaggedYields s place origin tag v r :=
  ⟨Yields.tagged, TaggedYields.yields⟩

/-- An include yields what the file yields. -/
theorem yields_include_iff :
    Yields s place origin (.tagged "include" (.text target)) r ↔
      FileYields s place (place origin target) r :=
  yields_tagged_iff

/-- A tag that is replaced without a file yields one thing. -/
theorem exists_taggedYields_iff (hfile : ∀ target, tag = "include" → v ≠ .text target) :
    ∃ r₀, ∀ r, TaggedYields s place origin tag v r ↔ r = r₀ := by
  unfold TaggedYields
  split
  · rename_i htag
    split
    · exact absurd rfl (hfile _ htag)
    · exact ⟨_, fun _ => Iff.rfl⟩
  · split
    · split
      · split
        · exact ⟨_, fun _ => Iff.rfl⟩
        · exact ⟨_, fun _ => Iff.rfl⟩
      · exact ⟨_, fun _ => Iff.rfl⟩
    · exact ⟨_, fun _ => Iff.rfl⟩

/-- Two results of such a tag are one. -/
theorem Yields.eq_of_tagged (h : Yields s place origin (.tagged tag v) r)
    (h' : Yields s place origin (.tagged tag v) r')
    (hfile : ∀ target, tag = "include" → v ≠ .text target) : r = r' := by
  obtain ⟨r₀, hr₀⟩ := @exists_taggedYields_iff s place origin v tag hfile
  rw [(hr₀ r).mp (yields_tagged_iff.mp h), (hr₀ r').mp (yields_tagged_iff.mp h')]

mutual

/-- **A value yields one result.** By induction on how it is yielded.  A value is yielded by its own
constructor only; of tags that is not plain from their form, so they go by `yields_tagged_iff`. -/
theorem Yields.unique {s : Surroundings} {place : Path → Path → Path} {origin : Path} {v : Value}
    {r r' : Except ConfigError Value} :
    Yields s place origin v r → Yields s place origin v r' → r = r'
  | .scalar h, h' => by
    cases h' with
    | scalar _ => rfl
    | _ => cases h
  | .sequence h, h' => by
    cases h' with
    | scalar h' => cases h'
    | sequence h' => rw [YieldsAll.unique h h']
  | .mapping h, h' => by
    cases h' with
    | scalar h' => cases h'
    | mapping h' => rw [YieldsAll.unique h h']
  | .file hread hyaml h, h' => by
    rw [yields_include_iff] at h'
    obtain ⟨e, hread', -⟩ | ⟨text', hread', ⟨hyaml', -⟩ | ⟨v', hyaml', h'⟩⟩ := h'
    · cases hread.symm.trans hread'
    · cases hread.symm.trans hread'
      cases hyaml.symm.trans hyaml'
    · cases hread.symm.trans hread'
      cases hyaml.symm.trans hyaml'
      exact Yields.unique h h'
  | .malformed hread hyaml, h' => by
    rw [yields_include_iff] at h'
    obtain ⟨e, hread', -⟩ | ⟨text', hread', ⟨hyaml', rfl⟩ | ⟨v', hyaml', h'⟩⟩ := h'
    · cases hread.symm.trans hread'
    · rfl
    · cases hread.symm.trans hread'
      cases hyaml.symm.trans hyaml'
  | .unreadable hread, h' => by
    rw [yields_include_iff] at h'
    obtain ⟨e, hread', rfl⟩ | ⟨text', hread', -⟩ := h'
    · cases hread.symm.trans hread'
      rfl
    · cases hread.symm.trans hread'
  | .badInclude h, h' => (Yields.badInclude h).eq_of_tagged h' fun target _ => h target
  | .known h, h' => (Yields.known h).eq_of_tagged h' fun _ ht => absurd ht (by decide)
  | .missing h, h' => (Yields.missing h).eq_of_tagged h' fun _ ht => absurd ht (by decide)
  | .badName h, h' => (Yields.badName h).eq_of_tagged h' fun _ ht => absurd ht (by decide)
  | .unsupported hi hv, h' => (Yields.unsupported hi hv).eq_of_tagged h' fun _ ht => absurd ht hi

/-- Values in turn yield one result. -/
theorem YieldsAll.unique {s : Surroundings} {place : Path → Path → Path} {origin : Path}
    {items : List Value} {r r' : Except ConfigError (List Value)} :
    YieldsAll s place origin items r → YieldsAll s place origin items r' → r = r'
  | .nil, h' => by
    cases h' with
    | nil => rfl
  | .cons h hr, h' => by
    cases h' with
    | cons h' hr' =>
      cases Yields.unique h h'
      rw [YieldsAll.unique hr hr']
    | error h' => cases Yields.unique h h'
  | .error h, h' => by
    cases h' with
    | cons h' _ => cases Yields.unique h h'
    | error h' =>
      cases Yields.unique h h'
      rfl

end

/-- A text yields one result. -/
theorem TextYields.unique (h : TextYields s place text origin r)
    (h' : TextYields s place text origin r') : r = r' := by
  obtain ⟨hyaml, rfl⟩ | ⟨v, hyaml, h⟩ := h <;> obtain ⟨hyaml', rfl⟩ | ⟨v', hyaml', h'⟩ := h'
  · rfl
  · cases hyaml.symm.trans hyaml'
  · cases hyaml.symm.trans hyaml'
  · cases hyaml.symm.trans hyaml'
    exact h.unique h'

/-- **A file yields one result.** -/
theorem FileYields.unique (h : FileYields s place p r) (h' : FileYields s place p r') : r = r' := by
  obtain ⟨e, hread, rfl⟩ | ⟨text, hread, h⟩ := h <;>
    obtain ⟨e', hread', rfl⟩ | ⟨text', hread', h'⟩ := h'
  · cases hread.symm.trans hread'
    rfl
  · cases hread.symm.trans hread'
  · cases hread.symm.trans hread'
  · cases hread.symm.trans hread'
    exact h.unique h'

end Unique

/-! ## 3. What is loaded -/

/-- Where a loader looks for a file that is included. -/
def place (l : Loader) (origin target : Path) : Path :=
  l.base.join (l.includedPath origin target)

/-- What the file `origin` includes is loaded as what it yields, if the trouble is not how files are
nested. -/
def LoadsFiles (l : Loader) (load : Path → Except ConfigError Value) (origin : Path) : Prop :=
  ∀ target, ¬ Fails IsNesting (load (l.includedPath origin target)) →
    FileYields l.surroundings l.place (l.place origin target) (load (l.includedPath origin target))

section Loads

variable {l : Loader} {load : Path → Except ConfigError Value} {origin p : Path} {text : String}
  {chain : List Path} {n : Nat} {α β : Type} {E : ConfigError → Prop} {a : Except ConfigError α}

theorem fails_map_iff {f : α → β} : Fails E (a.map f) ↔ Fails E a := by
  constructor
  · rintro ⟨e, he, hE⟩
    exact ⟨e, map_eq_error_iff.mp he, hE⟩
  · exact Fails.map f

/-- A tagged value is replaced by what it yields, if included files are loaded as what they yield.
-/
theorem replacement_yields
    (hload : l.LoadsFiles load origin)
    {tag : String} {v : Value} (h : ¬ Fails IsNesting (l.replacement load origin tag v)) :
    Yields l.surroundings l.place origin (.tagged tag v) (l.replacement load origin tag v) := by
  unfold replacement at h ⊢
  split
  · rename_i htag
    subst htag
    rw [if_pos rfl] at h
    split
    · exact yields_include_iff.mpr (hload _ h)
    · rename_i hv
      exact .badInclude hv
  · rename_i hi
    split
    · rename_i htag
      subst htag
      split
      · split
        · rename_i hraw
          exact .known hraw
        · rename_i hnone
          exact .missing hnone
      · rename_i hv
        exact .badName hv
    · rename_i hv
      exact .unsupported hi hv

mutual

/-- **A value is resolved as what it yields**, and so are the parts of a sequence and of a mapping.
By induction on the value; included files are left to `load`. -/
theorem resolve_yields {l : Loader} {load : Path → Except ConfigError Value} {origin : Path}
    (hload : l.LoadsFiles load origin) :
    ∀ v, ¬ Fails IsNesting (l.resolve load origin v) →
      Yields l.surroundings l.place origin v (l.resolve load origin v)
  | .tagged tag v, h => replacement_yields hload h
  | .sequence items, h => by
    simp only [resolve, fails_map_iff] at h ⊢
    exact .sequence (resolveItems_yields hload items h)
  | .mapping entries, h => by
    simp only [resolve, fails_map_iff] at h ⊢
    obtain ⟨r, hr, hall⟩ := resolveEntries_yields hload entries h
    have hmap : (l.resolveEntries load origin entries).map Value.mapping =
        r.map fun values => .mapping ((entries.map (·.1)).zip values) := by
      rw [hr]
      cases r <;> rfl
    rw [hmap]
    exact .mapping hall
  | .null, _ | .bool _, _ | .int _, _ | .float _, _ | .text _, _ => .scalar trivial

theorem resolveItems_yields {l : Loader} {load : Path → Except ConfigError Value} {origin : Path}
    (hload : l.LoadsFiles load origin) :
    ∀ items, ¬ Fails IsNesting (l.resolveItems load origin items) →
      YieldsAll l.surroundings l.place origin items (l.resolveItems load origin items)
  | [], _ => .nil
  | v :: rest, h => by
    rw [resolveItems] at h ⊢
    have hv := resolve_yields hload v fun hf => h hf.bind
    cases hw : l.resolve load origin v with
    | error e =>
      rw [hw] at hv
      exact .error hv
    | ok w =>
      rw [hw] at hv h
      have hrest := resolveItems_yields hload rest fun hf => h hf.bind
      cases hr : l.resolveItems load origin rest with
      | error e =>
        rw [hr] at hrest
        exact .cons hv hrest
      | ok ws =>
        rw [hr] at hrest
        exact .cons hv hrest

theorem resolveEntries_yields {l : Loader} {load : Path → Except ConfigError Value} {origin : Path}
    (hload : l.LoadsFiles load origin) :
    ∀ entries, ¬ Fails IsNesting (l.resolveEntries load origin entries) →
      ∃ r, l.resolveEntries load origin entries = r.map ((entries.map (·.1)).zip ·) ∧
        YieldsAll l.surroundings l.place origin (entries.map (·.2)) r
  | [], _ => ⟨.ok [], rfl, .nil⟩
  | (k, v) :: rest, h => by
    rw [resolveEntries] at h ⊢
    have hv := resolve_yields hload v fun hf => h hf.bind
    cases hw : l.resolve load origin v with
    | error e =>
      rw [hw] at hv
      exact ⟨.error e, rfl, .error hv⟩
    | ok w =>
      rw [hw] at hv h
      obtain ⟨r, hr, hrest⟩ := resolveEntries_yields hload rest fun hf => h hf.bind
      refine ⟨r.map (w :: ·), ?_, .cons hv hrest⟩
      rw [hr]
      cases r <;> rfl

end

/-- A text is loaded as what it yields, if included files are. -/
theorem loadText_yields
    (hload : l.LoadsFiles load origin)
    (h : ¬ Fails IsNesting (l.loadText load text origin)) :
    TextYields l.surroundings l.place text origin (l.loadText load text origin) := by
  unfold loadText at h ⊢
  cases hyaml : Yaml.read? text with
  | none => exact .inl ⟨hyaml, rfl⟩
  | some v =>
    rw [hyaml] at h
    exact .inr ⟨v, hyaml, resolve_yields hload v h⟩

/-- **A file is loaded as what it yields**, if the trouble is not how files are nested.  By
induction on how deep they may be. -/
theorem loadWithin_yields (h : ¬ Fails IsNesting (l.loadWithin n chain p)) :
    FileYields l.surroundings l.place (l.base.join p) (l.loadWithin n chain p) := by
  induction n generalizing chain p with
  | zero => exact absurd ⟨_, rfl, trivial⟩ h
  | succ n ih =>
    cases hnew : isAmong chain (l.base.join p) with
    | true =>
      rw [loadWithin_of_isAmong hnew] at h
      exact absurd ⟨_, rfl, trivial⟩ h
    | false =>
      cases hread : l.surroundings.read (l.base.join p) with
      | error e =>
        rw [loadWithin_of_error hnew hread]
        exact .inl ⟨e, hread, rfl⟩
      | ok text =>
        rw [loadWithin_succ hnew hread] at h ⊢
        exact .inr ⟨text, hread, loadText_yields (fun target => ih) h⟩

end Loads

/-! ## 4. Tags that are left -/

/-- A value whose tags all stand in keys or in parts that are `E`. -/
inductive Settled (E : Value → Prop) : Value → Prop
  | given {v : Value} (h : E v) : Settled E v
  | scalar {v : Value} (h : v.IsScalar) : Settled E v
  | sequence {items : List Value} (h : ∀ v ∈ items, Settled E v) : Settled E (.sequence items)
  | mapping {entries : List (Value × Value)} (h : ∀ x ∈ entries, Settled E x.2) :
    Settled E (.mapping entries)

/-- A value with tags in keys only. -/
def IsUntagged (v : Value) : Prop := Settled (fun _ => False) v

/-- What some variable stands for. -/
def IsVariableValue (environment : String → Option String) (v : Value) : Prop :=
  ∃ name raw, environment name = some raw ∧ v = variableValue raw

section Settled

variable {E E' : Value → Prop} {v w : Value} {α β ε : Type}

theorem Settled.bind (h : Settled E v) (hE : ∀ u, E u → Settled E' u) : Settled E' v := by
  induction h with
  | given h => exact hE _ h
  | scalar h => exact .scalar h
  | sequence _ ih => exact .sequence ih
  | mapping _ ih => exact .mapping ih

theorem exists_of_map_eq_ok {f : α → β} {a : Except ε α} {b : β} (h : a.map f = .ok b) :
    ∃ a', a = .ok a' ∧ f a' = b := by
  cases a with
  | error e => cases h
  | ok a' => exact ⟨a', rfl, Except.ok.inj h⟩

mutual

/-- **What is yielded has no tags of its own**: only keys have them, and what variables stand for.
-/
theorem Yields.settled {s : Surroundings} {place : Path → Path → Path} {origin : Path} {v : Value}
    {r : Except ConfigError Value} :
    Yields s place origin v r → ∀ w, r = .ok w → Settled (IsVariableValue s.environment) w
  | .scalar h, w, hr => Except.ok.inj hr ▸ .scalar h
  | .sequence h, w, hr => by
    obtain ⟨ws, hws, rfl⟩ := exists_of_map_eq_ok hr
    exact .sequence (YieldsAll.settled h ws hws)
  | .mapping h, w, hr => by
    obtain ⟨ws, hws, rfl⟩ := exists_of_map_eq_ok hr
    exact .mapping fun x hx => YieldsAll.settled h ws hws x.2 (List.of_mem_zip hx).2
  | .file _ _ h, w, hr => Yields.settled h w hr
  | .known h, w, hr => .given ⟨_, _, h, (Except.ok.inj hr).symm⟩
  | .malformed _ _, _, hr | .unreadable _, _, hr | .badInclude _, _, hr | .missing _, _, hr
  | .badName _, _, hr | .unsupported _ _, _, hr => by cases hr

theorem YieldsAll.settled {s : Surroundings} {place : Path → Path → Path} {origin : Path}
    {items : List Value} {r : Except ConfigError (List Value)} :
    YieldsAll s place origin items r → ∀ ws, r = .ok ws →
      ∀ w ∈ ws, Settled (IsVariableValue s.environment) w
  | .nil, ws, hr => by
    cases hr
    exact nofun
  | .cons h hrest, ws, hr => by
    obtain ⟨ws', hws', rfl⟩ := exists_of_map_eq_ok hr
    exact List.forall_mem_cons.mpr
      ⟨Yields.settled h _ rfl, YieldsAll.settled hrest ws' hws'⟩
  | .error _, _, hr => by cases hr

end

theorem mapM_eq_self {f : α → Except ε α} {xs : List α} (h : ∀ x ∈ xs, f x = .ok x) :
    xs.mapM f = .ok xs := by
  induction xs with
  | nil => rfl
  | cons x r ih =>
    obtain ⟨hx, hr⟩ := List.forall_mem_cons.mp h
    rw [List.mapM_cons, hx, ih hr]
    rfl

/-- **Without tags there is nothing to replace.** -/
theorem IsUntagged.resolve_eq (h : IsUntagged w) (l : Loader)
    (load : Path → Except ConfigError Value) (origin : Path) : l.resolve load origin w = .ok w := by
  unfold IsUntagged at h
  induction h with
  | given h => cases h
  | @scalar v h =>
    cases v with
    | sequence _ | mapping _ | tagged _ _ => cases h
    | _ => rfl
  | sequence _ ih =>
    rw [resolve, resolveItems_eq_mapM, mapM_eq_self ih]
    rfl
  | mapping _ ih =>
    rw [resolve, resolveEntries_eq_mapM, mapM_eq_self fun x hx => by rw [ih x hx]; rfl]
    rfl

end Settled

/-! ## 5. Next to the tag -/

section Beside

variable {s : Surroundings} {place place' : Path → Path → Path} {I : Path → Prop} {l : Loader}
  {origin target p : Path} {text : String} {r : Except ConfigError Value}

mutual

/-- A value yields the same when included files are at the same places, as far as it goes. -/
theorem Yields.congr_place {s : Surroundings} {place place' : Path → Path → Path} {I : Path → Prop}
    (hI : ∀ o target, I o → place o target = place' o target ∧ I (place o target))
    {origin : Path} {v : Value} {r : Except ConfigError Value} :
    Yields s place origin v r → I origin → Yields s place' origin v r
  | .scalar h, _ => .scalar h
  | .sequence h, ho => .sequence (YieldsAll.congr_place hI h ho)
  | .mapping h, ho => .mapping (YieldsAll.congr_place hI h ho)
  | @Yields.file _ _ _ target _ _ _ hread hyaml h, ho => by
    obtain ⟨hplace, hnext⟩ := hI origin target ho
    have h' := Yields.congr_place hI h hnext
    rw [hplace] at hread h'
    exact .file hread hyaml h'
  | @Yields.malformed _ _ _ target _ hread hyaml, ho => by
    rw [(hI origin target ho).1] at hread ⊢
    exact .malformed hread hyaml
  | @Yields.unreadable _ _ _ target _ hread, ho => by
    rw [(hI origin target ho).1] at hread ⊢
    exact .unreadable hread
  | .badInclude h, _ => .badInclude h
  | .known h, _ => .known h
  | .missing h, _ => .missing h
  | .badName h, _ => .badName h
  | .unsupported hi hv, _ => .unsupported hi hv

theorem YieldsAll.congr_place {s : Surroundings} {place place' : Path → Path → Path}
    {I : Path → Prop} (hI : ∀ o target, I o → place o target = place' o target ∧ I (place o target))
    {origin : Path} {items : List Value} {r : Except ConfigError (List Value)} :
    YieldsAll s place origin items r → I origin → YieldsAll s place' origin items r
  | .nil, _ => .nil
  | .cons h hr, ho => .cons (Yields.congr_place hI h ho) (YieldsAll.congr_place hI hr ho)
  | .error h, ho => .error (Yields.congr_place hI h ho)

end

theorem TextYields.congr_place
    (hI : ∀ o target, I o → place o target = place' o target ∧ I (place o target))
    (h : TextYields s place text origin r) (ho : I origin) : TextYields s place' text origin r := by
  obtain h | ⟨v, hyaml, h⟩ := h
  · exact .inl h
  · exact .inr ⟨v, hyaml, h.congr_place hI ho⟩

/-- What is included in a file at an absolute path is at an absolute path. -/
theorem isAbsolute_includedPath_of_base (hb : l.base.isAbsolute = true)
    (ho : origin.isAbsolute = true) (target : Path) :
    (l.includedPath origin target).isAbsolute = true := by
  have hdir : ((Path.parent? origin).getD l.base).isAbsolute = true := by
    cases hd : Path.parent? origin with
    | none => exact hb
    | some d => exact (Path.isAbsolute_of_parent? hd).trans ho
  cases ht : target.isAbsolute with
  | true => rw [includedPath, Path.join_of_isAbsolute ht, ht]
  | false => rw [includedPath, Path.isAbsolute_join ht, hdir]

theorem isAbsolute_join_of_base (hb : l.base.isAbsolute = true) (p : Path) :
    (l.base.join p).isAbsolute = true := by
  cases hp : p.isAbsolute with
  | true => rw [Path.join_of_isAbsolute hp, hp]
  | false => rw [Path.isAbsolute_join hp, hb]

/-- From an absolute base directory, an included file is looked for next to the tag. -/
theorem place_eq (hb : l.base.isAbsolute = true) (ho : origin.isAbsolute = true) (target : Path) :
    l.place origin target = l.includedPath origin target :=
  Path.join_of_isAbsolute (isAbsolute_includedPath_of_base hb ho target)

/-- **From an absolute base directory** a text yields what it yields with included files next to the
tags. -/
theorem textYields_place_iff (hb : l.base.isAbsolute = true) (ho : origin.isAbsolute = true) :
    TextYields s l.place text origin r ↔ TextYields s l.includedPath text origin r := by
  have habs := fun {o : Path} (ho : o.isAbsolute = true) target =>
    isAbsolute_includedPath_of_base hb ho target
  constructor
  · intro h
    refine h.congr_place (I := fun o => o.isAbsolute = true) (fun o target ho => ?_) ho
    rw [place_eq hb ho]
    exact ⟨rfl, habs ho target⟩
  · intro h
    refine h.congr_place (I := fun o => o.isAbsolute = true) (fun o target ho => ?_) ho
    rw [place_eq hb ho]
    exact ⟨rfl, habs ho target⟩

/-- **From an absolute base directory** a file yields what it yields with included files next to the
tags. -/
theorem fileYields_place_iff (hb : l.base.isAbsolute = true) :
    FileYields s l.place (l.base.join p) r ↔ FileYields s l.includedPath (l.base.join p) r := by
  simp only [FileYields, textYields_place_iff hb (isAbsolute_join_of_base hb p)]

end Beside

end Loader

/-! ## 6. Loads from a file tree -/

/-- The path leads back to a file that is being loaded, however it is spelled. -/
def FileTree.LeadsBack (t : FileTree) (dir : List String) (chain : List Path) (q : Path) : Prop :=
  Loader.isAmong chain q = true ∨ ∃ y ∈ chain, t.LeadsTogether dir y q

namespace Loader

section Tree

variable {t : FileTree} {dir : List String} {env : String → Option String} {base p origin : Path}
  {text : String} {n : Nat}

/-- **Where nothing leads back**, files are never nested too deep or in a cycle. -/
theorem not_nesting_of_not_leadsBack (hn : t.entries.length < n)
    (hback : ∀ m chain q, Comes ⟨t.surroundings dir env, base⟩ n [] p m chain q →
      ¬ t.LeadsBack dir chain (base.join q)) :
    ¬ Fails IsNesting (loadWithin ⟨t.surroundings dir env, base⟩ n [] p) := by
  rintro ⟨e, he, hnest⟩
  obtain ⟨m, chain, q, hcomes, ⟨-, hdeep⟩ | ⟨hseen, -⟩⟩ := exists_comes_of_nesting hnest he
  · -- The tree has fewer files than the load may nest, so one of them would come twice.
    have hdetour : ∀ m chain q, Comes ⟨t.surroundings dir env, base⟩ n [] p m chain q →
        ¬ t.IsDetour dir chain (base.join q) :=
      fun m chain q hc hd => hback m chain q hc (.inr hd.2)
    exact not_tooDeep_of_no_detour hdetour hn ⟨e, he, hdeep⟩
  · exact hback m chain q hcomes (.inl hseen)

theorem not_nesting_of_text (hn : t.entries.length < n)
    (hback : ∀ v target m chain q, Yaml.read? text = some v →
      Includes ⟨t.surroundings dir env, base⟩ (loadWithin ⟨t.surroundings dir env, base⟩ n [])
        origin target v →
      Comes ⟨t.surroundings dir env, base⟩ n []
        (includedPath ⟨t.surroundings dir env, base⟩ origin target) m chain q →
      ¬ t.LeadsBack dir chain (base.join q)) :
    ¬ Fails IsNesting (loadText ⟨t.surroundings dir env, base⟩
      (loadWithin ⟨t.surroundings dir env, base⟩ n []) text origin) := by
  rintro ⟨e, he, hnest⟩
  unfold loadText at he
  split at he
  · rename_i v hyaml
    obtain ⟨target, hinc, hload⟩ := exists_includes_of_nesting hnest v he
    exact not_nesting_of_not_leadsBack hn (fun m chain q => hback v target m chain q hyaml hinc)
      ⟨e, hload, hnest⟩
  · cases he
    cases hnest

/-- **What is loaded is what is yielded.** In a file tree where no include leads back to a file that
is being loaded, a file is loaded as what it yields, and so is a text: the tree with everything put
in its place, or the error of the first tag that cannot be replaced.  An included file is looked for
next to the tag if the base directory is absolute, and otherwise that path is taken from the base
directory once more.  What is loaded has tags only in keys and in what variables stand for; if the
latter have none but in keys, there is nothing left to be replaced. -/
theorem loads_what_is_yielded {l : Loader} (hl : l.surroundings = t.surroundings dir env)
    (hn : t.entries.length < n) :
    (∀ p, (∀ m chain q, Comes l n [] p m chain q → ¬ t.LeadsBack dir chain (l.base.join q)) →
      ∀ r, l.loadWithin n [] p = r ↔
        FileYields (t.surroundings dir env) l.place (l.base.join p) r) ∧
    (∀ text origin,
      (∀ v target m chain q, Yaml.read? text = some v →
        l.Includes (l.loadWithin n []) origin target v →
        Comes l n [] (l.includedPath origin target) m chain q →
        ¬ t.LeadsBack dir chain (l.base.join q)) →
      ∀ r, l.loadText (l.loadWithin n []) text origin = r ↔
        TextYields (t.surroundings dir env) l.place text origin r) ∧
    (l.base.isAbsolute = true →
      (∀ p r, FileYields (t.surroundings dir env) l.place (l.base.join p) r ↔
        FileYields (t.surroundings dir env) l.includedPath (l.base.join p) r) ∧
      ∀ text origin r, origin.isAbsolute = true →
        (TextYields (t.surroundings dir env) l.place text origin r ↔
          TextYields (t.surroundings dir env) l.includedPath text origin r)) ∧
    ∀ text origin w, TextYields (t.surroundings dir env) l.place text origin (.ok w) →
      Settled (IsVariableValue env) w ∧
      ((∀ name raw, env name = some raw → IsUntagged (variableValue raw)) →
        ∀ (l' : Loader) load origin', l'.resolve load origin' w = .ok w) := by
  obtain ⟨_, base⟩ := l
  cases hl
  refine ⟨fun p hback r => ?_, fun text origin hback r => ?_, fun hb =>
    ⟨fun p r => fileYields_place_iff hb, fun text origin r ho => textYields_place_iff hb ho⟩,
    fun text origin w h => ?_⟩
  · have hyields := loadWithin_yields (not_nesting_of_not_leadsBack hn hback)
    exact ⟨fun h => h ▸ hyields, fun h => hyields.unique h⟩
  · have hyields := loadText_yields (fun target => loadWithin_yields) (not_nesting_of_text hn hback)
    exact ⟨fun h => h ▸ hyields, fun h => hyields.unique h⟩
  · obtain ⟨-, h⟩ | ⟨v, -, h⟩ := h
    · cases h
    · have hsettled : Settled (IsVariableValue env) w := h.settled w rfl
      refine ⟨hsettled, fun hvalues l' load origin' => ?_⟩
      refine IsUntagged.resolve_eq (hsettled.bind ?_) l' load origin'
      rintro u ⟨name, raw, hraw, rfl⟩
      exact hvalues name raw hraw

theorem not_leadsBack_of_locate {chain : List Path} {q : Path} (hnew : isAmong chain q = false)
    (hplaces : ∀ y ∈ chain, t.locate dir y ≠ t.locate dir q) : ¬ t.LeadsBack dir chain q := by
  rintro (hseen | ⟨y, hy, place, hly, hlq⟩)
  · cases hnew.symm.trans hseen
  · exact hplaces y hy (hly.trans hlq.symm)

end Tree

section Sole

variable {l : Loader} {s : Surroundings} {place : Path → Path → Path} {p q target : Path}
  {text text' : String} {chain chain' : List Path} {m n : Nat} {i : Int}

/-- A whole number. -/
def wholeNumber? : Value → Option Int
  | .int i => some i
  | _ => none

/-- The number in a mapping of mappings with one entry each. -/
def innermostNumber? : Value → Option Int
  | .int i => some i
  | .mapping [(_, v)] => innermostNumber? v
  | _ => none

/-- A text whose one value is an include. -/
theorem exists_mapping_of_soleTag
    (htag : (Yaml.read? text).bind soleTag? = some ("include", target)) :
    ∃ k, Yaml.read? text = some (.mapping [(k, .tagged "include" (.text target))]) := by
  obtain ⟨v, hyaml, htag⟩ := Option.bind_eq_some_iff.mp htag
  unfold soleTag? at htag
  split at htag
  · cases htag
    exact ⟨_, hyaml⟩
  · cases htag

/-- A mapping with a sole include includes nothing else. -/
theorem Includes.eq_of_sole {load : Path → Except ConfigError Value} {origin target' : Path}
    {k : Value}
    (h : l.Includes load origin target' (.mapping [(k, .tagged "include" (.text target))])) :
    target' = target := by
  generalize hv : Value.mapping _ = v at h
  cases h with
  | here => cases hv
  | item _ _ => cases hv
  | @entry before after k' v _ h =>
    have hentries := Value.mapping.inj hv
    cases before with
    | nil =>
      obtain ⟨hx, -⟩ := List.cons.inj hentries
      obtain ⟨-, rfl⟩ := Prod.mk.inj hx
      cases h
      rfl
    | cons x before =>
      obtain ⟨-, hrest⟩ := List.cons.inj hentries
      cases before <;> cases hrest

/-- A load goes from a file with a sole include on to the included file. -/
theorem Comes.of_soleTag (hread : l.surroundings.read (l.base.join p) = .ok text)
    (htag : (Yaml.read? text).bind soleTag? = some ("include", target))
    (h : l.Comes n chain p m chain' q) :
    chain' = chain ∧ q = p ∨
      ∃ k, l.Comes k (chain ++ [l.base.join p]) (l.includedPath (l.base.join p) target) m chain'
        q := by
  obtain ⟨k, hyaml⟩ := exists_mapping_of_soleTag htag
  cases h with
  | here => exact .inl ⟨rfl, rfl⟩
  | through hnew hread' hyaml' hinc hrest =>
    cases hread.symm.trans hread'
    cases hyaml.symm.trans hyaml'
    exact .inr ⟨_, hinc.eq_of_sole ▸ hrest⟩

/-- A text that is a whole number. -/
theorem read?_of_wholeNumber (h : (Yaml.read? text).bind wholeNumber? = some i) :
    Yaml.read? text = some (.int i) := by
  obtain ⟨v, hyaml, hi⟩ := Option.bind_eq_some_iff.mp h
  unfold wholeNumber? at hi
  split at hi
  · cases hi
    exact hyaml
  · cases hi

/-- A load goes no further than to a file that is a whole number. -/
theorem Comes.of_wholeNumber (hread : l.surroundings.read (l.base.join p) = .ok text)
    (hi : (Yaml.read? text).bind wholeNumber? = some i) (h : l.Comes n chain p m chain' q) :
    chain' = chain ∧ q = p := by
  cases h with
  | here => exact ⟨rfl, rfl⟩
  | through hnew hread' hyaml hinc hrest =>
    cases hread.symm.trans hread'
    cases (read?_of_wholeNumber hi).symm.trans hyaml
    cases hinc

/-- A file with a sole include of a whole number yields the number. -/
theorem FileYields.of_soleTag (hread : s.read p = .ok text)
    (htag : (Yaml.read? text).bind soleTag? = some ("include", target))
    (hread' : s.read (place p target) = .ok text')
    (hi : (Yaml.read? text').bind wholeNumber? = some i) :
    ∃ w, FileYields s place p (.ok w) ∧ innermostNumber? w = some i := by
  obtain ⟨k, hyaml⟩ := exists_mapping_of_soleTag htag
  have hnumber : Yields s place p (.tagged "include" (.text target)) (.ok (.int i)) :=
    .file hread' (read?_of_wholeNumber hi) (.scalar trivial)
  have hentries : YieldsAll s place p [.tagged "include" (.text target)] (.ok [.int i]) :=
    .cons hnumber .nil
  have hmapping : Yields s place p (.mapping [(k, .tagged "include" (.text target))])
      (.ok (.mapping [(k, .int i)])) :=
    @Yields.mapping s place p [(k, .tagged "include" (.text target))] _ hentries
  exact ⟨_, .inr ⟨text, hread, .inr ⟨_, hyaml, hmapping⟩⟩, rfl⟩

end Sole

/-- A file that includes one in the directory below it, which includes a file beside itself. -/
def nestedTree : FileTree where
  entries := [(["a.yaml"], .file "x: !include d/b.yaml\n".toUTF8.data.toList), (["d"], .directory),
    (["d", "b.yaml"], .file "y: !include c.yaml\n".toUTF8.data.toList),
    (["d", "c.yaml"], .file "5\n".toUTF8.data.toList),
    (["c.yaml"], .file "7\n".toUTF8.data.toList)]

/-- The loader of that tree, from its root. -/
def nestedLoader : Loader := ⟨nestedTree.surroundings [] fun _ => none, "/"⟩

/-- A value that is loaded, by what is seen of it. -/
theorem exists_of_toOption_bind {α β : Type} {a : Except ConfigError α} {f : α → Option β} {b : β}
    (h : a.toOption.bind f = some b) : ∃ w, a = .ok w ∧ f w = some b := by
  cases a with
  | error e => cases h
  | ok w => exact ⟨w, rfl, h⟩

theorem load_nested :
    ∃ w, nestedLoader.loadWithin 6 [] "a.yaml" = .ok w ∧ innermostNumber? w = some 5 ∧
      FileYields nestedLoader.surroundings nestedLoader.includedPath
        (nestedLoader.base.join "a.yaml") (.ok w) ∧
      ∀ (l' : Loader) load origin, l'.resolve load origin w = .ok w := by
  obtain ⟨w, hload, hnumber⟩ : ∃ w, nestedLoader.loadWithin 6 [] "a.yaml" = .ok w ∧
      innermostNumber? w = some 5 :=
    exists_of_toOption_bind (by decide +kernel)
  have ha : nestedLoader.surroundings.read (nestedLoader.base.join "a.yaml") =
      .ok "x: !include d/b.yaml\n" := by
    decide +kernel
  have hb : nestedLoader.surroundings.read (nestedLoader.base.join
      (nestedLoader.includedPath (nestedLoader.base.join "a.yaml") "d/b.yaml")) =
      .ok "y: !include c.yaml\n" := by
    decide +kernel
  have hc : nestedLoader.surroundings.read (nestedLoader.base.join (nestedLoader.includedPath
      (nestedLoader.base.join
        (nestedLoader.includedPath (nestedLoader.base.join "a.yaml") "d/b.yaml")) "c.yaml")) =
      .ok "5\n" := by
    decide +kernel
  have hta : (Yaml.read? "x: !include d/b.yaml\n").bind soleTag? =
      some ("include", "d/b.yaml") := by
    decide +kernel
  have htb : (Yaml.read? "y: !include c.yaml\n").bind soleTag? = some ("include", "c.yaml") := by
    decide +kernel
  have htc : (Yaml.read? "5\n").bind wholeNumber? = some 5 := by decide +kernel
  have hback : ∀ m chain q, Comes nestedLoader 6 [] "a.yaml" m chain q →
      ¬ nestedTree.LeadsBack [] chain (nestedLoader.base.join q) := by
    intro m chain q h
    obtain ⟨rfl, rfl⟩ | ⟨k, h⟩ := h.of_soleTag ha hta
    · exact not_leadsBack_of_locate (by decide) nofun
    obtain ⟨rfl, rfl⟩ | ⟨k, h⟩ := h.of_soleTag hb htb
    · exact not_leadsBack_of_locate (by decide +kernel) (by decide +kernel)
    obtain ⟨rfl, rfl⟩ := h.of_wholeNumber hc htc
    exact not_leadsBack_of_locate (by decide +kernel) (by decide +kernel)
  obtain ⟨hfile, -, hbeside, hsettled⟩ :=
    @loads_what_is_yielded nestedTree [] (fun _ => none) 6 nestedLoader rfl (by decide)
  have hyields := (hfile "a.yaml" hback _).mp hload
  refine ⟨w, hload, hnumber, ((hbeside (by decide)).1 _ _).mp hyields, ?_⟩
  obtain ⟨e, -, he⟩ | ⟨text, -, htext⟩ := hyields
  · cases he
  · exact (hsettled text _ w htext).2 nofun

/-- A file in a directory below the working directory, with files of one name beside it and in the
directory of that name below its own. -/
def elsewhereTree : FileTree where
  entries := [(["sub"], .directory), (["sub", "sub"], .directory),
    (["sub", "sub", "sub"], .directory),
    (["sub", "sub", "breq.yaml"], .file "settle_delay_ms: !include d.yaml\n".toUTF8.data.toList),
    (["sub", "sub", "d.yaml"], .file "5\n".toUTF8.data.toList),
    (["sub", "sub", "sub", "d.yaml"], .file "7\n".toUTF8.data.toList)]

/-- The loader of that tree, from a relative base directory. -/
def elsewhereLoader : Loader := ⟨elsewhereTree.surroundings [] fun _ => none, "sub"⟩

/-- **An included file that is looked for elsewhere.** From a relative base directory, what is
loaded is not the tree with the file next to the tag in its place, though no include leads back. -/
theorem exists_included_elsewhere :
    ∃ (t : FileTree) (dir : List String) (l : Loader) (p : Path) (n : Nat) (w : Value),
      l.surroundings = t.surroundings dir (fun _ => none) ∧ t.entries.length < n ∧
      (∀ m chain q, Comes l n [] p m chain q → ¬ t.LeadsBack dir chain (l.base.join q)) ∧
      l.loadWithin n [] p = .ok w ∧
      ¬ FileYields l.surroundings l.includedPath (l.base.join p) (.ok w) := by
  obtain ⟨w, hload, hnumber⟩ : ∃ w, elsewhereLoader.loadWithin 7 [] "sub/breq.yaml" = .ok w ∧
      innermostNumber? w = some 7 :=
    exists_of_toOption_bind (by decide +kernel)
  have hread : elsewhereLoader.surroundings.read (elsewhereLoader.base.join "sub/breq.yaml") =
      .ok "settle_delay_ms: !include d.yaml\n" := by
    decide +kernel
  have htag : (Yaml.read? "settle_delay_ms: !include d.yaml\n").bind soleTag? =
      some ("include", "d.yaml") := by
    decide +kernel
  have hbeside : elsewhereLoader.surroundings.read (elsewhereLoader.includedPath
      (elsewhereLoader.base.join "sub/breq.yaml") "d.yaml") = .ok "5\n" := by
    decide +kernel
  have hbelow : elsewhereLoader.surroundings.read (elsewhereLoader.base.join
      (elsewhereLoader.includedPath (elsewhereLoader.base.join "sub/breq.yaml") "d.yaml")) =
      .ok "7\n" := by
    decide +kernel
  have hfive : (Yaml.read? "5\n").bind wholeNumber? = some 5 := by decide +kernel
  have hseven : (Yaml.read? "7\n").bind wholeNumber? = some 7 := by decide +kernel
  refine ⟨elsewhereTree, [], elsewhereLoader, "sub/breq.yaml", 7, w, rfl, by decide, ?_, hload, ?_⟩
  · intro m chain q h
    obtain ⟨rfl, rfl⟩ | ⟨k, h⟩ := h.of_soleTag hread htag
    · exact not_leadsBack_of_locate (by decide) nofun
    obtain ⟨rfl, rfl⟩ := h.of_wholeNumber hbelow hseven
    exact not_leadsBack_of_locate (by decide +kernel) (by decide +kernel)
  · intro hyields
    have hfive' : ∃ w', FileYields elsewhereLoader.surroundings elsewhereLoader.includedPath
        (elsewhereLoader.base.join "sub/breq.yaml") (.ok w') ∧ innermostNumber? w' = some 5 :=
      FileYields.of_soleTag hread htag hbeside hfive
    obtain ⟨w', hw', hnumber'⟩ := hfive'
    cases hyields.unique hw'
    cases hnumber.symm.trans hnumber'

end Loader

end DeviceScript
