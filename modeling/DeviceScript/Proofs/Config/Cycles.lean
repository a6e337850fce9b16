import DeviceScript.Proofs.Config.Loading
import Mathlib.Data.List.Perm.Subperm
/-!
# Includes that lead back to a file

A file that is being loaded must not be loaded again before it is done.  The loader knows its files
by the paths that led to them, and two dots in a path are never resolved.  So it takes a file for a
new one when a path leads back to it by another way, a detour (`FileTree.IsDetour`).

That is all that can go wrong.  A load either ends, at a depth that the number of files bounds, or
takes a detour; a path that is the same way as one of those being loaded ends the whole load with
the cycle; and a detour is not noticed, so that the file is read once more
(`Loader.load_ends_or_takes_detour`).  A detour can lead to another one without an end
(`Loader.exists_endless_load`): a file that includes itself by way of a directory beside it is
loaded as deep as the loader may go.

The argument follows a load down to one of its includes (`Loader.Comes`).  What an include fails
with, the whole load fails with.  A load that runs out of depth has come down through as many files
as it was deep, each new when it was come to.  If no path was a detour, these files are at different
places, and there are only so many.
-/

namespace DeviceScript

open Yaml (Value)
open ConfigError

/-- Includes are nested deeper than they may be. -/
def ConfigError.IsTooDeep : ConfigError → Prop
  | includedTooDeep _ => True
  | _ => False

/-- The trouble is how files are nested, and not what is in one of them. -/
def ConfigError.IsNesting : ConfigError → Prop
  | includeCycle _ | includedTooDeep _ => True
  | _ => False

theorem ConfigError.IsTooDeep.isNesting {e : ConfigError} (he : e.IsTooDeep) : e.IsNesting := by
  cases e <;> trivial

theorem ConfigError.IsTooDeep.not_isCycle {e : ConfigError} (he : e.IsTooDeep) : ¬ e.IsCycle := by
  intro hc
  cases e <;> trivial

namespace Loader

variable {l : Loader} {load load' : Path → Except ConfigError Value} {origin target p q : Path}
  {v : Value} {items : List Value} {entries : List (Value × Value)} {e : ConfigError}
  {chain chain' : List Path} {m n : Nat}

/-! ## 1. What a value includes -/

/-- Replacing the tagged parts of a value comes to an include of `target`, what stands before it
having been replaced. -/
inductive Includes (l : Loader) (load : Path → Except ConfigError Value) (origin target : Path) :
    Value → Prop
  | here : Includes l load origin target (.tagged "include" (.text target))
  | item {before after : List Value} {v : Value}
      (hb : ∀ w ∈ before, ∃ w', l.resolve load origin w = .ok w')
      (h : Includes l load origin target v) :
      Includes l load origin target (.sequence (before ++ v :: after))
  | entry {before after : List (Value × Value)} {k v : Value}
      (hb : ∀ x ∈ before, ∃ w', l.resolve load origin x.2 = .ok w')
      (h : Includes l load origin target v) :
      Includes l load origin target (.mapping (before ++ (k, v) :: after))

/-- What a list is mapped to fails with what its first item fails with that does. -/
theorem mapM_eq_error_iff {α β ε : Type} {f : α → Except ε β} {e : ε} {xs : List α} :
    xs.mapM f = .error e ↔ ∃ before x after, xs = before ++ x :: after ∧
      (∀ y ∈ before, ∃ y', f y = .ok y') ∧ f x = .error e := by
  induction xs with
  | nil =>
    refine iff_of_false nofun ?_
    rintro ⟨before, x, after, h, -⟩
    cases before <;> cases h
  | cons w r ih =>
    rw [List.mapM_cons]
    constructor
    · intro h
      cases hw : f w with
      | error e' =>
        rw [hw] at h
        cases h
        exact ⟨[], w, r, rfl, nofun, hw⟩
      | ok w' =>
        rw [hw] at h
        cases hr : r.mapM f with
        | error e' =>
          rw [hr] at h
          cases h
          obtain ⟨before, x, after, rfl, hb, hx⟩ := ih.mp hr
          exact ⟨w :: before, x, after, rfl, List.forall_mem_cons.mpr ⟨⟨w', hw⟩, hb⟩, hx⟩
        | ok r' =>
          rw [hr] at h
          cases h
    · rintro ⟨before, x, after, heq, hb, hx⟩
      cases before with
      | nil =>
        cases heq
        rw [hx]
        rfl
      | cons y before =>
        cases heq
        obtain ⟨⟨w', hw⟩, hb'⟩ := List.forall_mem_cons.mp hb
        rw [hw, ih.mpr ⟨before, x, after, rfl, hb', hx⟩]
        rfl

theorem resolveItems_eq_mapM (items : List Value) :
    l.resolveItems load origin items = items.mapM (l.resolve load origin) := by
  induction items with
  | nil => rfl
  | cons v r ih => rw [resolveItems, List.mapM_cons, ih]

theorem resolveEntries_eq_mapM (entries : List (Value × Value)) :
    l.resolveEntries load origin entries =
      entries.mapM fun x => (l.resolve load origin x.2).map (x.1, ·) := by
  induction entries with
  | nil => rfl
  | cons x r ih =>
    obtain ⟨k, v⟩ := x
    rw [resolveEntries, List.mapM_cons, ih]
    cases l.resolve load origin v <;> rfl

theorem map_eq_error_iff {α β ε : Type} {f : α → β} {a : Except ε α} {e : ε} :
    a.map f = .error e ↔ a = .error e := by
  cases a <;> simp [Except.map]

theorem exists_map_eq_ok_iff {α β ε : Type} {f : α → β} {a : Except ε α} :
    (∃ b, a.map f = .ok b) ↔ ∃ a', a = .ok a' := by
  cases a <;> simp [Except.map]

/-- **What an include fails with, the value fails with.** -/
theorem Includes.error (h : l.Includes load origin target v)
    (he : load (l.includedPath origin target) = .error e) : l.resolve load origin v = .error e := by
  induction h with
  | here => exact he
  | @item before after v hb _ ih =>
    rw [resolve, map_eq_error_iff, resolveItems_eq_mapM, mapM_eq_error_iff]
    exact ⟨before, v, after, rfl, hb, ih⟩
  | @entry before after k v hb _ ih =>
    rw [resolve, map_eq_error_iff, resolveEntries_eq_mapM, mapM_eq_error_iff]
    refine ⟨before, (k, v), after, rfl, fun x hx => ?_, map_eq_error_iff.mpr ih⟩
    exact exists_map_eq_ok_iff.mpr (hb x hx)

/-- Replacing a tagged value is no trouble of nesting, unless it is an include. -/
theorem replacement_of_nesting {tag : String} (he : e.IsNesting)
    (h : l.replacement load origin tag v = .error e) :
    ∃ target, tag = "include" ∧ v = .text target ∧
      load (l.includedPath origin target) = .error e := by
  unfold replacement at h
  split at h
  · rename_i htag
    split at h
    · exact ⟨_, htag, rfl, h⟩
    · cases h
      cases he
  · split at h
    · split at h
      · split at h
        · cases h
        · cases h
          cases he
      · cases h
        cases he
    · cases h
      cases he

/-- **What is nested badly is an include**: a value for which that is the trouble comes to an include
for which it is. -/
theorem exists_includes_of_nesting (he : e.IsNesting) :
    ∀ v, l.resolve load origin v = .error e →
      ∃ target, l.Includes load origin target v ∧ load (l.includedPath origin target) = .error e
  | .null, h | .bool _, h | .int _, h | .float _, h | .text _, h => by
    simp [resolve] at h
  | .tagged tag v, h => by
    rw [resolve] at h
    obtain ⟨target, rfl, rfl, hl⟩ := replacement_of_nesting he h
    exact ⟨target, .here, hl⟩
  | .sequence items, h => by
    rw [resolve, map_eq_error_iff, resolveItems_eq_mapM] at h
    obtain ⟨before, v, after, hitems, hb, hv⟩ := mapM_eq_error_iff.mp h
    have hmem : v ∈ items := by simp [hitems]
    obtain ⟨target, hi, hl⟩ := exists_includes_of_nesting he v hv
    exact ⟨target, hitems ▸ .item hb hi, hl⟩
  | .mapping entries, h => by
    rw [resolve, map_eq_error_iff, resolveEntries_eq_mapM] at h
    obtain ⟨before, x, after, hentries, hb, hv⟩ := mapM_eq_error_iff.mp h
    have hmem : x ∈ entries := by simp [hentries]
    obtain ⟨target, hi, hl⟩ := exists_includes_of_nesting he x.2 (map_eq_error_iff.mp hv)
    exact ⟨target, hentries ▸ .entry (fun y hy => exists_map_eq_ok_iff.mp (hb y hy)) hi, hl⟩
termination_by v => sizeOf v
decreasing_by
  · have := List.sizeOf_lt_of_mem hmem
    simp only [Value.sequence.sizeOf_spec]
    omega
  · have := List.sizeOf_lt_of_mem hmem
    obtain ⟨k, v⟩ := x
    simp only [Value.mapping.sizeOf_spec, Prod.mk.sizeOf_spec] at this ⊢
    omega

/-- Mappings of a list that agree but where the first one fails come to the same, or the first one
fails. -/
theorem mapM_fails_or_eq {α β : Type} {E : ConfigError → Prop} {f g : α → Except ConfigError β}
    {xs : List α} (h : ∀ x ∈ xs, Fails E (f x) ∨ f x = g x) :
    Fails E (xs.mapM f) ∨ xs.mapM f = xs.mapM g := by
  induction xs with
  | nil => exact .inr rfl
  | cons w r ih =>
    obtain ⟨hw, hr⟩ := List.forall_mem_cons.mp h
    rw [List.mapM_cons, List.mapM_cons]
    rcases hw with hw | hw
    · exact .inl hw.bind
    · rw [← hw]
      cases f w with
      | error e => exact .inr rfl
      | ok w' =>
        rcases ih hr with hf | heq
        · exact .inl hf.bind
        · exact .inr (by rw [heq])

theorem Fails.map {α β : Type} {E : ConfigError → Prop} {a : Except ConfigError α} (k : α → β)
    (h : Fails E a) : Fails E (a.map k) := by
  obtain ⟨e, rfl, he⟩ := h
  exact ⟨e, rfl, he⟩

/-- A value that can be replaced without going too deep is replaced alike when files are loaded
alike, but for those that go too deep. -/
theorem resolve_fails_or_eq (hload : ∀ target, Fails IsTooDeep (load (l.includedPath origin target)) ∨
      load (l.includedPath origin target) = load' (l.includedPath origin target)) :
    ∀ v, Fails IsTooDeep (l.resolve load origin v) ∨
      l.resolve load origin v = l.resolve load' origin v
  | .null | .bool _ | .int _ | .float _ | .text _ => .inr (by simp only [resolve])
  | .tagged tag v => by
    simp only [resolve, replacement]
    split
    · split
      · exact hload _
      · exact .inr rfl
    · exact .inr rfl
  | .sequence items => by
    simp only [resolve, resolveItems_eq_mapM]
    have hitems : Fails IsTooDeep (items.mapM (l.resolve load origin)) ∨
        items.mapM (l.resolve load origin) = items.mapM (l.resolve load' origin) :=
      mapM_fails_or_eq fun v hmem => resolve_fails_or_eq hload v
    exact hitems.imp (Fails.map _) (congrArg _)
  | .mapping entries => by
    simp only [resolve, resolveEntries_eq_mapM]
    have hentries : Fails IsTooDeep
          (entries.mapM fun x => (l.resolve load origin x.2).map (x.1, ·)) ∨
        entries.mapM (fun x => (l.resolve load origin x.2).map (x.1, ·)) =
          entries.mapM fun x => (l.resolve load' origin x.2).map (x.1, ·) :=
      mapM_fails_or_eq fun x hmem =>
        (resolve_fails_or_eq hload x.2).imp (Fails.map _) (congrArg _)
    exact hentries.imp (Fails.map _) (congrArg _)
termination_by v => sizeOf v
decreasing_by
  · have := List.sizeOf_lt_of_mem hmem
    simp only [Value.sequence.sizeOf_spec]
    omega
  · have := List.sizeOf_lt_of_mem hmem
    obtain ⟨k, v⟩ := x
    simp only [Value.mapping.sizeOf_spec, Prod.mk.sizeOf_spec] at this ⊢
    omega

/-! ## 2. How deep a load goes -/

/-- A file that is loaded by a path, when the path is no cycle and can be read. -/
theorem loadWithin_succ {text : String} (hnew : isAmong chain (l.base.join p) = false)
    (hread : l.surroundings.read (l.base.join p) = .ok text) :
    l.loadWithin (n + 1) chain p =
      l.loadText (l.loadWithin n (chain ++ [l.base.join p])) text (l.base.join p) := by
  have hany : (chain.any (l.base.join p).same) = false := hnew
  simp [loadWithin, hany, hread]

/-- A path that is the same way as one of the chain is a cycle. -/
theorem loadWithin_of_isAmong (h : isAmong chain (l.base.join p) = true) :
    l.loadWithin (n + 1) chain p = .error (.includeCycle (chain ++ [l.base.join p])) := by
  have hany : (chain.any (l.base.join p).same) = true := h
  simp [loadWithin, hany]

/-- A path that is no cycle and cannot be read. -/
theorem loadWithin_of_error {fe : FileError} (hnew : isAmong chain (l.base.join p) = false)
    (hread : l.surroundings.read (l.base.join p) = .error fe) :
    l.loadWithin (n + 1) chain p = .error (.unreadable (l.base.join p) fe) := by
  have hany : (chain.any (l.base.join p).same) = false := hnew
  simp [loadWithin, hany, hread]

/-- **A greater depth changes nothing but what went too deep.** -/
theorem loadWithin_fails_or_eq (hmn : m ≤ n) :
    Fails IsTooDeep (l.loadWithin m chain p) ∨ l.loadWithin m chain p = l.loadWithin n chain p := by
  induction m generalizing n chain p with
  | zero => exact .inl ⟨_, rfl, trivial⟩
  | succ m ih =>
    cases n with
    | zero => cases hmn
    | succ n =>
      cases hnew : isAmong chain (l.base.join p) with
      | true =>
        rw [loadWithin_of_isAmong hnew, loadWithin_of_isAmong hnew]
        exact .inr rfl
      | false =>
        cases hread : l.surroundings.read (l.base.join p) with
        | error fe =>
          rw [loadWithin_of_error hnew hread, loadWithin_of_error hnew hread]
          exact .inr rfl
        | ok text =>
          rw [loadWithin_succ hnew hread, loadWithin_succ hnew hread, loadText, loadText]
          split
          · exact resolve_fails_or_eq (fun target => ih (Nat.le_of_succ_le_succ hmn)) _
          · exact .inr rfl

/-- A load comes down to the load of a path, the one in the file that the other is included in. -/
inductive Comes (l : Loader) : Nat → List Path → Path → Nat → List Path → Path → Prop
  | here {n : Nat} {chain : List Path} {p : Path} : Comes l n chain p n chain p
  | through {m n : Nat} {chain chain' : List Path} {p q target : Path} {text : String} {v : Value}
      (hnew : isAmong chain (l.base.join p) = false)
      (hread : l.surroundings.read (l.base.join p) = .ok text) (hyaml : Yaml.read? text = some v)
      (hinc : l.Includes (l.loadWithin n (chain ++ [l.base.join p])) (l.base.join p) target v)
      (hrest : Comes l n (chain ++ [l.base.join p]) (l.includedPath (l.base.join p) target) m
        chain' q) : Comes l (n + 1) chain p m chain' q

/-- **What a load comes down to fails for the whole load.** -/
theorem Comes.error (h : l.Comes n chain p m chain' q) (he : l.loadWithin m chain' q = .error e) :
    l.loadWithin n chain p = .error e := by
  induction h with
  | here => exact he
  | through hnew hread hyaml hinc _ ih =>
    rw [loadWithin_succ hnew hread, loadText, hyaml]
    exact hinc.error (ih he)

/-- A load that fails by how files are nested has come down all the way, or to a path that is the same
way as one of those being loaded. -/
theorem exists_comes_of_nesting (he : e.IsNesting) (h : l.loadWithin n chain p = .error e) :
    ∃ m chain' q, l.Comes n chain p m chain' q ∧
      (m = 0 ∧ e.IsTooDeep ∨ isAmong chain' (l.base.join q) = true ∧ e.IsCycle) := by
  induction n generalizing chain p with
  | zero =>
    cases h
    exact ⟨0, chain, p, .here, .inl ⟨rfl, trivial⟩⟩
  | succ n ih =>
    cases hnew : isAmong chain (l.base.join p) with
    | true =>
      rw [loadWithin_of_isAmong hnew] at h
      cases h
      exact ⟨n + 1, chain, p, .here, .inr ⟨hnew, trivial⟩⟩
    | false =>
      cases hread : l.surroundings.read (l.base.join p) with
      | error fe =>
        rw [loadWithin_of_error hnew hread] at h
        cases h
        cases he
      | ok text =>
        rw [loadWithin_succ hnew hread, loadText] at h
        cases hyaml : Yaml.read? text with
        | none =>
          rw [hyaml] at h
          cases h
          cases he
        | some v =>
          rw [hyaml] at h
          obtain ⟨target, hinc, hload⟩ := exists_includes_of_nesting he v h
          obtain ⟨m, chain', q, hrest, hend⟩ := ih hload
          exact ⟨m, chain', q, .through hnew hread hyaml hinc hrest, hend⟩

/-- Each file on the way down is one more that is being loaded. -/
theorem Comes.length_eq (h : l.Comes n chain p m chain' q) :
    chain'.length + m = chain.length + n := by
  induction h with
  | here => rfl
  | through _ _ _ _ _ ih =>
    rw [ih, List.length_append, List.length_singleton]
    omega

/-- What is being loaded could be read. -/
theorem Comes.exists_read (h : l.Comes n chain p m chain' q)
    (hchain : ∀ y ∈ chain, ∃ text, l.surroundings.read y = .ok text) :
    ∀ y ∈ chain', ∃ text, l.surroundings.read y = .ok text := by
  induction h with
  | here => exact hchain
  | through _ hread _ _ _ ih =>
    refine ih ?_
    rw [List.forall_mem_append, List.forall_mem_singleton]
    exact ⟨hchain, _, hread⟩

/-- A relation that each path on the way down has to those before it holds of all that are being
loaded, pair by pair. -/
theorem Comes.pairwise {R : Path → Path → Prop} (h : l.Comes n chain p m chain' q)
    (hR : ∀ k c x, l.Comes n chain p k c x → isAmong c (l.base.join x) = false →
      ∀ y ∈ c, R y (l.base.join x)) (hchain : chain.Pairwise R) : chain'.Pairwise R := by
  induction h with
  | here => exact hchain
  | @through m n chain chain' p q target text v hnew hread hyaml hinc _ ih =>
    refine ih (fun k c x hc => hR k c x (.through hnew hread hyaml hinc hc)) ?_
    rw [List.pairwise_append]
    refine ⟨hchain, List.pairwise_singleton _ _, fun y hy z hz => ?_⟩
    obtain rfl := List.mem_singleton.mp hz
    exact hR _ _ _ .here hnew y hy

end Loader

/-! ## 3. Ways to one place -/

namespace FileTree

variable {t : FileTree} {dir place place' : List String} {ps : List (List Char)} {p q : Path}
  {chain : List Path}

/-- The paths lead to one place. -/
def LeadsTogether (t : FileTree) (dir : List String) (p q : Path) : Prop :=
  ∃ place, t.locate dir p = .ok place ∧ t.locate dir q = .ok place

/-- The path leads to a file that is being loaded, and it is not the same way as any path that is
known to do so. -/
def IsDetour (t : FileTree) (dir : List String) (chain : List Path) (q : Path) : Prop :=
  Loader.isAmong chain q = false ∧ ∃ y ∈ chain, t.LeadsTogether dir y q

/-- Paths that lead to one place are read alike. -/
theorem LeadsTogether.read_eq (h : t.LeadsTogether dir p q) : t.read dir q = t.read dir p := by
  obtain ⟨place, hp, hq⟩ := h
  rw [read, read, hp, hq]

/-- There are only so many files. -/
theorem mem_entries_of_at? {content : List UInt8} (h : t.at? place = some (.file content)) :
    place ∈ t.entries.map (·.1) := by
  unfold at? at h
  split at h
  · cases h
  · obtain ⟨x, hx, -⟩ := Option.map_eq_some_iff.mp h
    have hkey := List.find?_some hx
    exact List.mem_map.mpr ⟨x, List.mem_of_find?_eq_some hx, eq_of_beq hkey⟩

/-- **Files at different places** are no more than there are entries. -/
theorem length_le_of_pairwise (hread : ∀ y ∈ chain, ∃ text, t.read dir y = .ok text)
    (h : chain.Pairwise fun y z => ¬ t.LeadsTogether dir y z) :
    chain.length ≤ t.entries.length := by
  let placeOf (y : Path) : List String := (t.locate dir y).toOption.getD []
  have hplace : ∀ y ∈ chain, t.locate dir y = .ok (placeOf y) ∧
      placeOf y ∈ t.entries.map (·.1) := by
    intro y hy
    obtain ⟨text, htext⟩ := hread y hy
    obtain ⟨place, content, _, hloc, hat, -⟩ := exists_of_read_iff.mp htext
    have heq : placeOf y = place := by
      change (t.locate dir y).toOption.getD [] = place
      rw [hloc]
      rfl
    rw [heq]
    exact ⟨hloc, mem_entries_of_at? hat⟩
  have hnodup : (chain.map placeOf).Nodup := by
    refine List.pairwise_map.mpr (h.imp_of_mem fun {y z} hy hz hne heq => hne ?_)
    exact ⟨placeOf y, (hplace y hy).1, heq ▸ (hplace z hz).1⟩
  have hsub : chain.map placeOf ⊆ t.entries.map (·.1) := by
    intro place hmem
    obtain ⟨y, hy, rfl⟩ := List.mem_map.mp hmem
    exact (hplace y hy).2
  have hle := (List.subperm_of_subset hnodup hsub).length_le
  rwa [List.length_map, List.length_map] at hle

/-- The steps of a path lead where the path leads. -/
theorem foldlM_steps_of_locate (h : t.locate dir p = .ok place) :
    p.steps.2.foldlM t.step (if p.isAbsolute then [] else dir) = .ok place := by
  unfold locate at h
  split at h
  · cases h
  · split at h
    · cases h
    · split at h
      · cases h
      · rw [Path.steps_snd, ← Path.filter_pieces]
        exact foldlM_filter_of_ok h

/-- Steps that never go up lead to the place that is named by them. -/
theorem eq_of_foldlM (hps : ∀ x ∈ ps, Path.isIdle x = false ∧ x ≠ ['.', '.'])
    (h : ps.foldlM t.step place = .ok place') : place' = place ++ ps.map String.ofList := by
  induction ps generalizing place with
  | nil =>
    cases h
    exact (List.append_nil _).symm
  | cons x ps ih =>
    obtain ⟨⟨hidle, hup⟩, hrest⟩ := List.forall_mem_cons.mp hps
    rw [List.foldlM_cons] at h
    obtain ⟨mid, hmid, hfold⟩ := exists_of_bind_eq_ok h
    have hnext : mid = place ++ [String.ofList x] := by
      simp only [step, at?_of_step hmid, hidle, Bool.false_eq_true, if_false, beq_iff_eq, hup]
        at hmid
      split at hmid
      · cases hmid
      · split at hmid
        · exact (Except.ok.inj hmid).symm
        · cases hmid
    rw [ih hrest hfold, hnext, List.append_assoc]
    rfl

/-- **Paths that never go up** are the same way if they begin alike and lead to one place. -/
theorem LeadsTogether.same (h : t.LeadsTogether dir p q) (hstart : p.steps.1 = q.steps.1)
    (hp : ['.', '.'] ∉ p.steps.2) (hq : ['.', '.'] ∉ q.steps.2) : q.same p = true := by
  obtain ⟨place, hlp, hlq⟩ := h
  have hplain : ∀ p : Path, ['.', '.'] ∉ p.steps.2 →
      ∀ x ∈ p.steps.2, Path.isIdle x = false ∧ x ≠ ['.', '.'] := by
    intro p hp x hx
    refine ⟨?_, fun heq => hp (heq ▸ hx)⟩
    rw [Path.steps_snd, Path.stepsOf, List.mem_filter, Bool.not_eq_true'] at hx
    exact hx.2
  have habs : p.isAbsolute = q.isAbsolute := by
    rw [Bool.eq_iff_iff, ← Path.steps_fst_eq_iff, ← Path.steps_fst_eq_iff, hstart]
  have hplace := (eq_of_foldlM (hplain p hp) (foldlM_steps_of_locate hlp)).symm.trans
    (eq_of_foldlM (hplain q hq) (foldlM_steps_of_locate hlq))
  rw [habs] at hplace
  have hinj : Function.Injective String.ofList := fun a b hab => by
    simpa using congrArg String.toList hab
  have hsteps := List.map_injective_iff.mpr hinj (List.append_cancel_left hplace)
  exact beq_iff_eq.mpr (Prod.ext hstart.symm hsteps.symm)

end FileTree

/-! ## 4. Loads from a file tree -/

namespace Loader

variable {t : FileTree} {dir : List String} {env : String → Option String} {base p q : Path}
  {chain : List Path} {n : Nat}

/-- **Without a detour a load ends.**  It cannot come down through more files than there are. -/
theorem not_tooDeep_of_no_detour
    (hnone : ∀ m chain q, Comes ⟨t.surroundings dir env, base⟩ n [] p m chain q →
      ¬ t.IsDetour dir chain (base.join q)) (hn : t.entries.length < n) :
    ¬ Fails IsTooDeep (loadWithin ⟨t.surroundings dir env, base⟩ n [] p) := by
  rintro ⟨e, he, hdeep⟩
  obtain ⟨m, chain, q, hcomes, ⟨rfl, -⟩ | ⟨-, hcycle⟩⟩ :=
    exists_comes_of_nesting hdeep.isNesting he
  case inr => exact absurd hcycle hdeep.not_isCycle
  have hread : ∀ y ∈ chain, ∃ text, t.read dir y = .ok text := hcomes.exists_read nofun
  have hapart : chain.Pairwise fun y z => ¬ t.LeadsTogether dir y z :=
    hcomes.pairwise (fun m chain q hc hnew y hy htog => hnone m chain q hc ⟨hnew, y, hy, htog⟩)
      List.Pairwise.nil
  have hlength : chain.length + 0 = 0 + n := hcomes.length_eq
  have hle := FileTree.length_le_of_pairwise hread hapart
  omega

/-- **Includes that lead back.**  Whatever the files and the path are, a load from a file tree does
one of two things: it ends with a result that does not depend on how deep includes may be nested,
once they may be nested deeper than there are files; or it takes a detour.  When it comes down to a
path that is the same way as one of those being loaded, the whole load fails with that cycle.  When
it comes down to a path that leads to a file being loaded by another way, the same text is read and
replaced once more.  That cannot be if both paths begin alike and neither goes up. -/
theorem load_ends_or_takes_detour (t : FileTree) (dir : List String) (env : String → Option String)
    (base p : Path) :
    ((∃ r, ¬ Fails IsTooDeep r ∧
        ∀ n > t.entries.length, loadWithin ⟨t.surroundings dir env, base⟩ n [] p = r) ∨
      ∃ n m chain q, Comes ⟨t.surroundings dir env, base⟩ n [] p m chain q ∧
        t.IsDetour dir chain (base.join q)) ∧
    ∀ n m chain q, Comes ⟨t.surroundings dir env, base⟩ n [] p (m + 1) chain q →
      (isAmong chain (base.join q) = true →
        loadWithin ⟨t.surroundings dir env, base⟩ n [] p =
          .error (.includeCycle (chain ++ [base.join q]))) ∧
      ∀ y ∈ chain, t.LeadsTogether dir y (base.join q) →
        (isAmong chain (base.join q) = false → ∃ text, t.read dir y = .ok text ∧
          loadWithin ⟨t.surroundings dir env, base⟩ (m + 1) chain q =
            loadText ⟨t.surroundings dir env, base⟩
              (loadWithin ⟨t.surroundings dir env, base⟩ m (chain ++ [base.join q])) text
              (base.join q)) ∧
        (y.steps.1 = (base.join q).steps.1 → ['.', '.'] ∉ y.steps.2 →
          ['.', '.'] ∉ (base.join q).steps.2 → isAmong chain (base.join q) = true) := by
  refine ⟨?_, fun n m chain q hcomes => ⟨fun hseen => ?_, fun y hy htog => ⟨fun hnew => ?_, ?_⟩⟩⟩
  · by_cases hdetour : ∃ n m chain q, Comes ⟨t.surroundings dir env, base⟩ n [] p m chain q ∧
        t.IsDetour dir chain (base.join q)
    · exact .inr hdetour
    · have hends : ∀ n > t.entries.length,
          ¬ Fails IsTooDeep (loadWithin ⟨t.surroundings dir env, base⟩ n [] p) := fun n hn =>
        not_tooDeep_of_no_detour (fun m chain q hc hd => hdetour ⟨n, m, chain, q, hc, hd⟩) hn
      have hleast := hends (t.entries.length + 1) (Nat.lt_succ_self _)
      exact .inl ⟨_, hleast, fun n hn => ((loadWithin_fails_or_eq hn).resolve_left hleast).symm⟩
  · exact hcomes.error (loadWithin_of_isAmong hseen)
  · obtain ⟨text, htext⟩ := hcomes.exists_read nofun y hy
    have hread : t.read dir (base.join q) = .ok text := htog.read_eq.trans htext
    exact ⟨text, htext, loadWithin_succ hnew hread⟩
  · intro hstart hyup hqup
    exact List.any_eq_true.mpr ⟨y, hy, htog.same hstart hyup hqup⟩

/-- The tag and the text in a mapping whose one value is a text with a tag. -/
def soleTag? : Value → Option (String × String)
  | .mapping [(_, .tagged tag (.text target))] => some (tag, target)
  | _ => none

/-- A text that is a mapping with nothing but an include. -/
theorem exists_of_soleTag? (text target : String)
    (h : (Yaml.read? text).bind soleTag? = some ("include", target)) :
    ∃ v, Yaml.read? text = some v ∧ ∀ (l : Loader) (load : Path → Except ConfigError Value)
      (origin : Path), l.Includes load origin target v := by
  obtain ⟨v, hv, htag⟩ := Option.bind_eq_some_iff.mp h
  refine ⟨v, hv, fun l load origin => ?_⟩
  unfold soleTag? at htag
  split at htag
  · cases htag
    exact @Includes.entry _ _ _ _ [] [] _ _ nofun .here
  · cases htag

/-- Two files that include each other. -/
def ringTree : FileTree where
  entries := [(["a.yaml"], .file "b: !include b.yaml\n".toUTF8.data.toList),
    (["b.yaml"], .file "a: !include a.yaml\n".toUTF8.data.toList)]

theorem load_ring :
    load ⟨ringTree.surroundings [] fun _ => none, ""⟩ "a.yaml" =
      .error (.includeCycle ["a.yaml", "b.yaml", "a.yaml"]) := by
  have ha : ringTree.read [] "a.yaml" = .ok "b: !include b.yaml\n" := by decide +kernel
  have hb : ringTree.read [] "b.yaml" = .ok "a: !include a.yaml\n" := by decide +kernel
  obtain ⟨va, hva, hia⟩ := exists_of_soleTag? "b: !include b.yaml\n" "b.yaml" (by decide +kernel)
  obtain ⟨vb, hvb, hib⟩ := exists_of_soleTag? "a: !include a.yaml\n" "a.yaml" (by decide +kernel)
  have hcomes : Comes ⟨ringTree.surroundings [] fun _ => none, ""⟩ 16384 [] "a.yaml" (16381 + 1)
      ["a.yaml", "b.yaml"] "a.yaml" :=
    .through (by decide) ha hva (hia _ _ _) (.through (by decide) hb hvb (hib _ _ _) .here)
  exact ((load_ends_or_takes_detour ringTree [] (fun _ => none) "" "a.yaml").2 _ _ _ _ hcomes).1
    (by decide)

/-- A file that includes itself by way of a directory beside it, where paths may have any length. -/
def detourTree : FileTree where
  entries := [(["a.yaml"], .file "x: !include d/../a.yaml\n".toUTF8.data.toList),
    (["d"], .directory)]
  pathLimit := none

/-- The steps to the file by way of the directory, so many times. -/
def detourSteps (k : Nat) : List (List Char) :=
  (List.replicate k [['d'], ['.', '.']]).flatten ++ ["a.yaml".toList]

/-- The path leads to the file by way of the directory, so many times. -/
structure Winds (k : Nat) (p : Path) : Prop where
  isAbsolute : p.isAbsolute = false
  namesFile : p.namesFile = true
  steps : p.steps.2 = detourSteps k

theorem length_detourSteps (k : Nat) : (detourSteps k).length = 2 * k + 1 := by
  simp [detourSteps, Nat.mul_comm]

theorem detourSteps_succ (k : Nat) : detourSteps (k + 1) = ['d'] :: ['.', '.'] :: detourSteps k := by
  simp [detourSteps, List.replicate_succ]

/-- The steps lead where the last of them alone leads. -/
theorem foldlM_detourSteps (k : Nat) : (detourSteps k).foldlM detourTree.step [] = .ok ["a.yaml"] := by
  induction k with
  | zero => decide
  | succ k ih =>
    have hdown : detourTree.step [] ['d'] = .ok ["d"] := by decide
    have hup : detourTree.step ["d"] ['.', '.'] = .ok [] := by decide
    rw [detourSteps_succ, List.foldlM_cons, hdown]
    change (['.', '.'] :: detourSteps k).foldlM detourTree.step ["d"] = _
    rw [List.foldlM_cons, hup]
    exact ih

theorem isNulFree_detourSteps (k : Nat) : FileTree.IsNulFree (detourSteps k) := by
  induction k with
  | zero => simp [FileTree.IsNulFree, detourSteps]
  | succ k ih =>
    rw [detourSteps_succ]
    exact List.forall_mem_cons.mpr ⟨by simp, List.forall_mem_cons.mpr ⟨by simp, ih⟩⟩

/-- However often it goes by way of the directory, the path leads to the file. -/
theorem Winds.locate {k : Nat} (h : Winds k p) : detourTree.locate [] p = .ok ["a.yaml"] := by
  have hne : p ≠ "" := by
    rintro rfl
    cases h.namesFile
  obtain ⟨x, hx, hi⟩ := Path.namesFile_iff.mp h.namesFile
  rw [FileTree.locate_eq_ok_iff rfl, h.steps, h.isAbsolute, FileTree.foldlM_filter_iff hx hi]
  have hsteps := h.steps
  rw [Path.steps_snd, Path.stepsOf] at hsteps
  exact ⟨isNulFree_detourSteps k, hne, hsteps ▸ foldlM_detourSteps k⟩

/-- What the file includes goes by way of the directory once more. -/
theorem Winds.includes {k : Nat} (l : Loader) (h : Winds k p) :
    Winds (k + 1) (l.includedPath p "d/../a.yaml") := by
  have hrelative : Path.isAbsolute "d/../a.yaml" = false := by decide
  obtain ⟨habs, hsteps, hname⟩ := includedPath_of_namesFile l h.namesFile hrelative
  refine ⟨habs.trans h.isAbsolute, hname.trans (by decide), ?_⟩
  have htarget : Path.steps "d/../a.yaml" = ([], detourSteps 1) := by decide
  rw [hsteps, h.steps, htarget, detourSteps, List.dropLast_concat]
  simp [detourSteps, List.replicate_succ']

/-- **A load that takes one detour after the other** goes as deep as it may.  By induction on how deep
that is: each include winds once more, so that its path is not the same way as any before. -/
theorem tooDeep_of_winds {l : Loader} {k : Nat} (hl : l.surroundings.read = detourTree.read [])
    (hbase : l.base = "") (h : Winds k p) (hchain : ∀ y ∈ chain, ∃ i < k, Winds i y) :
    Fails IsTooDeep (l.loadWithin n chain p) := by
  induction n generalizing k chain p with
  | zero => exact ⟨_, rfl, trivial⟩
  | succ n ih =>
    have hjoin : l.base.join p = p := by simp [hbase, Path.join]
    have hnew : isAmong chain (l.base.join p) = false := by
      rw [hjoin, isAmong, List.any_eq_false]
      intro y hy hsame
      obtain ⟨i, hi, hwinds⟩ := hchain y hy
      have hlength := congrArg List.length (Path.eq_of_same hsame).2
      rw [h.steps, hwinds.steps, length_detourSteps, length_detourSteps] at hlength
      omega
    have hread : l.surroundings.read (l.base.join p) = .ok "x: !include d/../a.yaml\n" := by
      have hfirst : detourTree.read [] "a.yaml" = .ok "x: !include d/../a.yaml\n" := by
        decide +kernel
      rw [hl, hjoin, ← hfirst]
      exact FileTree.LeadsTogether.read_eq ⟨["a.yaml"], by decide, h.locate⟩
    obtain ⟨v, hv, hinc⟩ := exists_of_soleTag? "x: !include d/../a.yaml\n" "d/../a.yaml"
      (by decide +kernel)
    have hchain' : ∀ y ∈ chain ++ [p], ∃ i < k + 1, Winds i y := by
      rw [List.forall_mem_append, List.forall_mem_singleton]
      refine ⟨fun y hy => ?_, k, Nat.lt_succ_self k, h⟩
      obtain ⟨i, hi, hwinds⟩ := hchain y hy
      exact ⟨i, Nat.lt_succ_of_lt hi, hwinds⟩
    obtain ⟨e, he, hdeep⟩ := ih (h.includes l) hchain'
    refine ⟨e, ?_, hdeep⟩
    rw [loadWithin_succ hnew hread, loadText, hv, hjoin]
    exact (hinc l _ p).error he

/-- **A load without an end.**  Where paths may have any length, a file that includes itself by way
of a directory beside it leads back to itself, and it is loaded as deep as the loader may go, however
deep that is, instead of failing with a cycle. -/
theorem exists_endless_load :
    ∃ (t : FileTree) (dir : List String) (env : String → Option String) (base p q : Path),
      t.pathLimit = none ∧ t.LeadsTogether dir p q ∧
      (∀ n, Comes ⟨t.surroundings dir env, base⟩ (n + 1) [] p n [base.join p] q) ∧
      ∀ n, Fails IsTooDeep (loadWithin ⟨t.surroundings dir env, base⟩ n [] p) := by
  have hstart : Winds 0 "a.yaml" := ⟨by decide, by decide, by decide⟩
  refine ⟨detourTree, [], fun _ => none, "", "a.yaml", "d/../a.yaml", rfl,
    ⟨["a.yaml"], by decide, by decide⟩, fun n => ?_, fun n => ?_⟩
  · obtain ⟨v, hv, hinc⟩ := exists_of_soleTag? "x: !include d/../a.yaml\n" "d/../a.yaml"
      (by decide +kernel)
    have hread : detourTree.read [] (Path.join "" "a.yaml") = .ok "x: !include d/../a.yaml\n" := by
      decide +kernel
    exact .through (by decide) hread hv (hinc _ _ _) .here
  · exact tooDeep_of_winds rfl rfl hstart nofun

end Loader

end DeviceScript
