import DeviceScript.Proofs.Config.Substitution
import Mathlib.Data.List.Chain
import Mathlib.Logic.Relation
/-!
# The files being loaded

A loader knows the files that it is in the middle of.  It may keep them in one place for all files,
where a file is put before what it includes is loaded and taken away again afterwards
(`Loader.loading`), instead of handing them down from a file to the next.  That comes to the same
(`Loader.loading_minds`): however a load ends, the chain is afterwards what it was before, and what
is above it meanwhile never has one path twice.

So a cycle is found only where there is one.  In the chain that is reported each file includes the
next (`Loader.HasInclude`), no file comes twice, and only the last element is the same way as one
before it (`Loader.ComesRound`).  A file that is included as often as one likes, but not by itself
or by what it includes, is never what a cycle comes back to.

The first half is an induction on how deep includes are nested, with one on the value of a file
inside; what carries both is that steps which mind the chain can be put together
(`Loader.Minds.bind`).  The second half follows a load down to the include at which it failed
(`Loader.Comes`).
-/

namespace DeviceScript

open Yaml (Value)
open ConfigError

/-! ## 1. A chain for all files -/

namespace Loader

/-- No two of these paths are the same way. -/
def AllApart (chain : List Path) : Prop :=
  chain.Pairwise fun p q => q.same p = false

/-- A path that is none of the same way can be put at the end. -/
theorem AllApart.concat {chain : List Path} {p : Path} (h : AllApart chain)
    (hp : isAmong chain p = false) : AllApart (chain ++ [p]) := by
  refine List.pairwise_append.mpr ⟨h, List.pairwise_singleton _ _, fun q hq r hr => ?_⟩
  obtain rfl := List.mem_singleton.mp hr
  exact (Bool.not_eq_true _).mp (List.any_eq_false.mp hp q hq)

/-- The files that are being loaded, the outermost first, and all such chains that there were
before, the latest first. -/
structure Chains where
  current : List Path
  past : List (List Path)

/-- The chains after a file was put at the end. -/
def Chains.push (s : Chains) (p : Path) : Chains :=
  ⟨s.current ++ [p], s.current :: s.past⟩

/-- The chains after the last file was taken away. -/
def Chains.pop (s : Chains) : Chains :=
  ⟨s.current.dropLast, s.current :: s.past⟩

/-- Something that may change the chain, and may fail; the chain is still there then. -/
abbrev Loading (α : Type) := ExceptT ConfigError (StateM Chains) α

/-- Something that is done while a file is being loaded.  The file is taken away from the chain
however that ended. -/
def during {α : Type} (p : Path) (body : Loading α) : Loading α := do
  modify (·.push p)
  let loaded ← ExceptT.lift body.run
  modify Chains.pop
  MonadExcept.ofExcept loaded

section Loading

variable (l : Loader) (load : Path → Loading Value) (origin : Path)

/-- What a value with a tag stands for, `load` giving the content of an included file. -/
def replacing (tag : String) (v : Value) : Loading Value :=
  if tag = "include" then
    match v with
    | .text target => load (l.includedPath origin target)
    | v => throw (.badInclude origin v)
  else if tag = "env_var" then
    match v with
    | .text name =>
      match l.surroundings.environment name with
      | some raw => pure (variableValue raw)
      | none => throw (.missingVariable name)
    | _ => throw .badVariableName
  else throw (.unsupportedTag tag)

mutual

/-- Replace all tagged parts of a value from the file `origin`. -/
def resolving : Value → Loading Value
  | .tagged tag v => l.replacing load origin tag v
  | .sequence items => do return .sequence (← resolvingItems items)
  | .mapping entries => do return .mapping (← resolvingEntries entries)
  | v => pure v

/-- Replace all tagged parts of the items of a sequence. -/
def resolvingItems : List Value → Loading (List Value)
  | [] => pure []
  | v :: r => do
    let v ← resolving v
    let r ← resolvingItems r
    pure (v :: r)

/-- Replace all tagged parts of the values of a mapping. -/
def resolvingEntries : List (Value × Value) → Loading (List (Value × Value))
  | [] => pure []
  | (k, v) :: r => do
    let v ← resolving v
    let r ← resolvingEntries r
    pure ((k, v) :: r)

end

/-- Load a text as though it were the content of the file `origin`. -/
def loadingText (text : String) : Loading Value :=
  match Yaml.read? text with
  | some v => l.resolving load origin v
  | none => throw (.malformed origin)

end Loading

/-- Load a file, with includes nested no deeper than this. -/
def loading (l : Loader) : (depth : Nat) → Path → Loading Value
  | 0, path => throw (.includedTooDeep path)
  | depth + 1, path => do
    let path := l.base.join path
    let s ← get
    if s.current.any path.same then throw (.includeCycle (s.current ++ [path]))
    else match l.surroundings.read path with
      | .error e => throw (.unreadable path e)
      | .ok text => during path (l.loadingText (l.loading depth) path text)

/-! ## 2. The chain is minded -/

section Runs

variable {α β : Type} (act : Loading α) (s : Chains)

theorem run_bind (f : α → Loading β) :
    (act >>= f).run.run s = match act.run.run s with
      | (.ok a, s') => (f a).run.run s'
      | (.error e, s') => (.error e, s') := by
  rw [ExceptT.run_bind, StateT.run_bind]
  change (match act.run.run s with | (r, s') => _) = _
  obtain ⟨r, s'⟩ := act.run.run s
  cases r <;> rfl

theorem run_during (p : Path) :
    (during p act).run.run s = match act.run.run (s.push p) with
      | (r, s') => (r, s'.pop) := by
  change (match act.run.run (s.push p) with
    | (r, s') => (MonadExcept.ofExcept r : Loading α).run.run s'.pop) = _
  obtain ⟨r, s'⟩ := act.run.run (s.push p)
  cases r <;> rfl

end Runs

/-- From this chain the steps come to this result, and the chain is the same afterwards.  All chains
that there are meanwhile are `C`. -/
def Minds {α : Type} (C : List Path → Prop) (chain : List Path) (act : Loading α)
    (r : Except ConfigError α) : Prop :=
  ∀ past, ∃ passed, act.run.run ⟨chain, past⟩ = (r, ⟨chain, passed ++ past⟩) ∧ ∀ c ∈ passed, C c

section Minds

variable {α β : Type} {C : List Path → Prop} {chain : List Path} {act : Loading α}
  {r : Except ConfigError α} {l : Loader} {load : Path → Except ConfigError Value}
  {load' : Path → Loading Value} {origin : Path}

theorem minds_pure (a : α) : Minds C chain (pure a) (.ok a) :=
  fun _ => ⟨[], rfl, nofun⟩

theorem minds_throw (e : ConfigError) : Minds C chain (throw e : Loading α) (.error e) :=
  fun _ => ⟨[], rfl, nofun⟩

/-- **Steps that mind the chain** mind it one after the other. -/
theorem Minds.bind {f : α → Loading β} {g : α → Except ConfigError β} (h : Minds C chain act r)
    (hf : ∀ a, Minds C chain (f a) (g a)) : Minds C chain (act >>= f) (r >>= g) := by
  intro past
  obtain ⟨passed, hrun, hpassed⟩ := h past
  rw [run_bind, hrun]
  cases r with
  | error e => exact ⟨passed, rfl, hpassed⟩
  | ok a =>
    obtain ⟨more, hmore, hall⟩ := hf a (passed ++ past)
    refine ⟨more ++ passed, ?_, List.forall_mem_append.mpr ⟨hall, hpassed⟩⟩
    rw [List.append_assoc]
    exact hmore

/-- Looking at the chain does not change it. -/
theorem minds_get {f : Chains → Loading α} (h : ∀ past, Minds C chain (f ⟨chain, past⟩) r) :
    Minds C chain (get >>= f) r := by
  intro past
  rw [run_bind]
  exact h past past

/-- **What is done while a file is being loaded** minds the chain, if it minds the chain with the
file. -/
theorem Minds.during {p : Path} (h : Minds C (chain ++ [p]) act r) (hchain : C chain)
    (hp : C (chain ++ [p])) : Minds C chain (Loader.during p act) r := by
  intro past
  obtain ⟨passed, hrun, hpassed⟩ := h (chain :: past)
  refine ⟨(chain ++ [p]) :: (passed ++ [chain]), ?_, ?_⟩
  · rw [run_during, Chains.push, hrun]
    simp [Chains.pop]
  · rw [List.forall_mem_cons, List.forall_mem_append, List.forall_mem_singleton]
    exact ⟨hp, hpassed, hchain⟩

/-- A tagged value is replaced with a mind to the chain, if included files are loaded so. -/
theorem replacing_minds (hload : ∀ target,
      Minds C chain (load' (l.includedPath origin target)) (load (l.includedPath origin target)))
    (tag : String) (v : Value) :
    Minds C chain (l.replacing load' origin tag v) (l.replacement load origin tag v) := by
  unfold replacing replacement
  by_cases hi : tag = "include"
  · rw [if_pos hi, if_pos hi]
    cases v with
    | text target => exact hload target
    | _ => exact minds_throw _
  · rw [if_neg hi, if_neg hi]
    by_cases hv : tag = "env_var"
    · rw [if_pos hv, if_pos hv]
      cases v with
      | text name =>
        cases hraw : l.surroundings.environment name with
        | some raw => simpa only [hraw] using minds_pure _
        | none => simpa only [hraw] using minds_throw _
      | _ => exact minds_throw _
    · rw [if_neg hv, if_neg hv]
      exact minds_throw _

mutual

/-- **A value is resolved with a mind to the chain**, if included files are loaded so. -/
theorem resolving_minds {C : List Path → Prop} {chain : List Path} {l : Loader}
    {load : Path → Except ConfigError Value} {load' : Path → Loading Value} {origin : Path}
    (hload : ∀ target,
      Minds C chain (load' (l.includedPath origin target)) (load (l.includedPath origin target))) :
    ∀ v, Minds C chain (l.resolving load' origin v) (l.resolve load origin v)
  | .tagged tag v => replacing_minds hload tag v
  | .sequence items => (resolvingItems_minds hload items).bind fun _ => minds_pure _
  | .mapping entries => (resolvingEntries_minds hload entries).bind fun _ => minds_pure _
  | .null | .bool _ | .int _ | .float _ | .text _ => minds_pure _

theorem resolvingItems_minds {C : List Path → Prop} {chain : List Path} {l : Loader}
    {load : Path → Except ConfigError Value} {load' : Path → Loading Value} {origin : Path}
    (hload : ∀ target,
      Minds C chain (load' (l.includedPath origin target)) (load (l.includedPath origin target))) :
    ∀ items, Minds C chain (l.resolvingItems load' origin items) (l.resolveItems load origin items)
  | [] => minds_pure _
  | v :: r => (resolving_minds hload v).bind fun _ =>
      (resolvingItems_minds hload r).bind fun _ => minds_pure _

theorem resolvingEntries_minds {C : List Path → Prop} {chain : List Path} {l : Loader}
    {load : Path → Except ConfigError Value} {load' : Path → Loading Value} {origin : Path}
    (hload : ∀ target,
      Minds C chain (load' (l.includedPath origin target)) (load (l.includedPath origin target))) :
    ∀ entries,
      Minds C chain (l.resolvingEntries load' origin entries) (l.resolveEntries load origin entries)
  | [] => minds_pure _
  | (_, v) :: r => (resolving_minds hload v).bind fun _ =>
      (resolvingEntries_minds hload r).bind fun _ => minds_pure _

end

theorem loadingText_minds (hload : ∀ target,
      Minds C chain (load' (l.includedPath origin target)) (load (l.includedPath origin target)))
    (text : String) :
    Minds C chain (l.loadingText load' origin text) (l.loadText load text origin) := by
  unfold loadingText loadText
  cases Yaml.read? text with
  | some v => exact resolving_minds hload v
  | none => exact minds_throw _

/-- **Loading a file minds the chain.** By induction on how deep includes may be nested.  A file is
put on the chain only when it is the same way as none that is there. -/
theorem loading_minds {below : List Path} {n : Nat} {p : Path} (hbelow : below <+: chain)
    (hapart : AllApart chain) :
    Minds (fun c => below <+: c ∧ AllApart c) chain (l.loading n p) (l.loadWithin n chain p) := by
  induction n generalizing chain p with
  | zero => exact minds_throw _
  | succ n ih =>
    refine minds_get fun past => ?_
    change Minds _ chain (if isAmong chain (l.base.join p) then _ else _) _
    cases hnew : isAmong chain (l.base.join p) with
    | true =>
      rw [loadWithin_of_isAmong hnew]
      exact minds_throw _
    | false =>
      cases hread : l.surroundings.read (l.base.join p) with
      | error e =>
        rw [loadWithin_of_error hnew hread]
        exact minds_throw _
      | ok text =>
        have hbelow' : below <+: chain ++ [l.base.join p] := hbelow.trans (List.prefix_append _ _)
        have hapart' : AllApart (chain ++ [l.base.join p]) := hapart.concat hnew
        rw [loadWithin_succ hnew hread]
        exact (loadingText_minds (fun target => ih hbelow' hapart') text).during
          ⟨hbelow, hapart⟩ ⟨hbelow', hapart'⟩

end Minds

/-! ## 3. Cycles -/

/-- An include of a file stands somewhere in a value, and not in a key. -/
inductive Mentions (target : Path) : Value → Prop
  | here : Mentions target (.tagged "include" (.text target))
  | item {items : List Value} {v : Value} (hv : v ∈ items) (h : Mentions target v) :
      Mentions target (.sequence items)
  | entry {entries : List (Value × Value)} {k v : Value} (hv : (k, v) ∈ entries)
      (h : Mentions target v) : Mentions target (.mapping entries)

/-- The file at the one path has an include, and this leads to the other path. -/
def HasInclude (l : Loader) (p q : Path) : Prop :=
  ∃ text v target, l.surroundings.read p = .ok text ∧ Yaml.read? text = some v ∧
    Mentions target v ∧ q = l.place p target

/-- A file includes itself, directly or through others. -/
def IncludesItself (l : Loader) (p : Path) : Prop :=
  ∃ q r, p.same q = true ∧ p.same r = true ∧ Relation.TransGen l.HasInclude q r

/-- Files of which each includes the next, the last of them being the same way as one of those
before, which are all different. -/
structure ComesRound (l : Loader) (files : List Path) (last : Path) : Prop where
  includes : (files ++ [last]).IsChain l.HasInclude
  apart : AllApart files
  once : files.countP last.same = 1

section Cycles

variable {l : Loader} {load : Path → Except ConfigError Value} {origin target p q : Path}
  {v : Value} {chain chain' files c : List Path} {last : Path} {m n : Nat}

/-- What a load comes to is mentioned. -/
theorem Includes.mentions (h : l.Includes load origin target v) : Mentions target v := by
  induction h with
  | here => exact .here
  | item _ _ ih => exact .item (List.mem_append_right _ List.mem_cons_self) ih
  | entry _ _ ih => exact .entry (List.mem_append_right _ List.mem_cons_self) ih

/-- On the way down each file includes the next. -/
theorem Comes.isChain (h : l.Comes n chain p m chain' q)
    (hchain : (chain ++ [l.base.join p]).IsChain l.HasInclude) :
    (chain' ++ [l.base.join q]).IsChain l.HasInclude := by
  induction h with
  | here => exact hchain
  | @through m n chain chain' p q target text v hnew hread hyaml hinc _ ih =>
    refine ih (hchain.append (.singleton _) fun y hy z hz => ?_)
    rw [List.getLast?_concat, Option.mem_some_iff] at hy
    rw [List.head?_singleton, Option.mem_some_iff] at hz
    exact hy ▸ hz ▸ ⟨text, v, target, hread, hyaml, hinc.mentions, rfl⟩

/-- The way down begins with the file that is loaded. -/
theorem Comes.isPrefix (h : l.Comes n chain p m chain' q) :
    chain ++ [l.base.join p] <+: chain' ++ [l.base.join q] := by
  induction h with
  | here => exact List.prefix_rfl
  | through _ _ _ _ _ ih => exact (List.prefix_append _ _).trans ih

/-- On the way down no file comes twice. -/
theorem Comes.allApart (h : l.Comes n [] p m chain' q) : AllApart chain' := by
  refine h.pairwise (fun k c x _ hnew y hy => ?_) .nil
  exact (Bool.not_eq_true _).mp (List.any_eq_false.mp hnew y hy)

/-- A cycle is found where a load comes down to a path that is the same way as one of those being
loaded. -/
theorem exists_comes_of_cycle (h : l.loadWithin n chain p = .error (.includeCycle c)) :
    ∃ m chain' q, l.Comes n chain p m chain' q ∧ isAmong chain' (l.base.join q) = true ∧
      c = chain' ++ [l.base.join q] := by
  obtain ⟨m, chain', q, hcomes, ⟨-, hdeep⟩ | ⟨hseen, -⟩⟩ :=
    exists_comes_of_nesting (e := .includeCycle c) trivial h
  · cases hdeep
  · refine ⟨m, chain', q, hcomes, hseen, ?_⟩
    cases m with
    | zero => cases h.symm.trans (hcomes.error rfl)
    | succ m => exact includeCycle.inj (Except.error.inj (h.symm.trans
        (hcomes.error (loadWithin_of_isAmong hseen))))

/-- Of paths that are all different, one at most is the same way as some path. -/
theorem AllApart.countP_same (h : AllApart chain) (hp : isAmong chain p = true) :
    chain.countP p.same = 1 := by
  induction chain with
  | nil => cases hp
  | cons q chain ih =>
    obtain ⟨hq, hchain⟩ := List.pairwise_cons.mp h
    cases hsame : p.same q with
    | false =>
      rw [isAmong, List.any_cons, hsame, Bool.false_or] at hp
      rw [List.countP_cons_of_neg (by simp [hsame])]
      exact ih hchain hp
    | true =>
      have hnone : ∀ r ∈ chain, ¬ p.same r = true := by
        intro r hr hpr
        have hrq : r.same q = true := beq_iff_eq.mpr
          ((beq_iff_eq.mp hpr).symm.trans (beq_iff_eq.mp hsame))
        cases (hq r hr).symm.trans hrq
      rw [List.countP_cons_of_pos (by simp [hsame]), List.countP_eq_zero.mpr hnone]

/-- **A load that fails with a cycle has come round.** -/
theorem exists_comesRound (h : l.loadWithin n [] p = .error (.includeCycle c)) :
    c.head? = some (l.base.join p) ∧ ∃ files last, c = files ++ [last] ∧
      l.ComesRound files last := by
  obtain ⟨m, files, q, hcomes, hseen, rfl⟩ := exists_comes_of_cycle h
  refine ⟨?_, files, _, rfl, hcomes.isChain (.singleton _), hcomes.allApart,
    hcomes.allApart.countP_same hseen⟩
  obtain ⟨rest, hrest⟩ := hcomes.isPrefix
  rw [← hrest]
  rfl

/-- **The file that a cycle comes back to includes itself.** -/
theorem ComesRound.includesItself (h : l.ComesRound files last) (hp : last.same p = true) :
    l.IncludesItself p := by
  obtain ⟨q, hq, hsame⟩ := List.countP_pos_iff.mp (h.once ▸ Nat.one_pos)
  obtain ⟨before, after, rfl⟩ := List.append_of_mem hq
  have hchain : (q :: (after ++ [last])).IsChain l.HasInclude := by
    have hincludes := h.includes
    rw [List.append_assoc] at hincludes
    exact (List.isChain_append.mp hincludes).2.1
  have hpath : Relation.TransGen l.HasInclude q last :=
    (hchain.imp fun _ _ => Relation.TransGen.single).rel_cons
      (List.mem_append_right _ (List.mem_singleton_self _))
  have hp' : p.same last = true := beq_iff_eq.mpr (beq_iff_eq.mp hp).symm
  exact ⟨q, last, beq_iff_eq.mpr ((beq_iff_eq.mp hp').trans (beq_iff_eq.mp hsame)), hp', hpath⟩

end Cycles

/-- **The chain of files being loaded.** A file or a text may be loaded with one chain for all files,
which each file is put on and taken off again.  Whatever chain there is before, if it has no path
twice, the result is the one of the loader that hands the chain down, be it a value or any error; the
chain is the same afterwards; and all chains meanwhile go on from it and have no path twice.

A cycle is only reported when there is one: the chain begins with the file that is loaded, each file
in it includes the next, no path comes twice before the last, and the last is the same way as just
one before it.  A file that this last path leads to includes itself, so that a file which does not,
neither directly nor through others, is never the cause. -/
theorem chain_of_load (l : Loader) (n : Nat) :
    (∀ chain, AllApart chain →
      (∀ p, Minds (fun c => chain <+: c ∧ AllApart c) chain (l.loading n p)
        (l.loadWithin n chain p)) ∧
      ∀ text origin, Minds (fun c => chain <+: c ∧ AllApart c) chain
        (l.loadingText (l.loading n) origin text)
        (l.loadText (l.loadWithin n chain) text origin)) ∧
    (∀ p c, l.loadWithin n [] p = .error (.includeCycle c) →
      c.head? = some (l.base.join p) ∧ ∃ files last, c = files ++ [last] ∧
        l.ComesRound files last ∧ ∀ q, last.same q = true → l.IncludesItself q) ∧
    ∀ text origin c, l.loadText (l.loadWithin n []) text origin = .error (.includeCycle c) →
      ∃ files last, c = files ++ [last] ∧ l.ComesRound files last ∧
        ∀ q, last.same q = true → l.IncludesItself q := by
  refine ⟨fun chain hapart => ⟨fun p => loading_minds List.prefix_rfl hapart, fun text origin =>
    loadingText_minds (fun target => loading_minds List.prefix_rfl hapart) text⟩, ?_, ?_⟩
  · intro p c h
    obtain ⟨hhead, files, last, hc, hround⟩ := exists_comesRound h
    exact ⟨hhead, files, last, hc, hround, fun q => hround.includesItself⟩
  · intro text origin c h
    unfold loadText at h
    split at h
    · rename_i v hyaml
      obtain ⟨target, -, hload⟩ := exists_includes_of_nesting (e := .includeCycle c) trivial v h
      obtain ⟨-, files, last, hc, hround⟩ := exists_comesRound hload
      exact ⟨files, last, hc, hround, fun q => hround.includesItself⟩
    · cases h

/-- Two files that include each other, and one that three files include. -/
def sharedTree : FileTree where
  entries := [(["top.yaml"], .file "x: !include d.yaml\ny: !include a.yaml\n".toUTF8.data.toList),
    (["a.yaml"], .file "x: !include d.yaml\ny: !include b.yaml\n".toUTF8.data.toList),
    (["b.yaml"], .file "x: !include d.yaml\ny: !include ./a.yaml\n".toUTF8.data.toList),
    (["d.yaml"], .file "5\n".toUTF8.data.toList)]

/-- The loader of that tree, from its root. -/
def sharedLoader : Loader := ⟨sharedTree.surroundings [] fun _ => none, "/"⟩

/-- The chain of a cycle that was found. -/
def cycle? : Except ConfigError Value → Option (List Path)
  | .error (.includeCycle chain) => some chain
  | _ => none

theorem eq_of_cycle? {r : Except ConfigError Value} {c : List Path} (h : cycle? r = some c) :
    r = .error (.includeCycle c) := by
  unfold cycle? at h
  split at h
  · rw [Option.some.inj h]
  · cases h

/-- The shared file does no harm; the cycle is the one of the two files. -/
theorem chain_of_shared :
    AllApart ["/z.yaml"] ∧
      Minds (fun c => ["/z.yaml"] <+: c ∧ AllApart c) ["/z.yaml"]
        (sharedLoader.loading 5 "top.yaml") (sharedLoader.loadWithin 5 ["/z.yaml"] "top.yaml") ∧
      sharedLoader.loadWithin 5 [] "top.yaml" =
        .error (.includeCycle ["/top.yaml", "/a.yaml", "/b.yaml", "/./a.yaml"]) ∧
      sharedLoader.ComesRound ["/top.yaml", "/a.yaml", "/b.yaml"] "/./a.yaml" ∧
      sharedLoader.IncludesItself "/a.yaml" ∧
      sharedLoader.loadText (sharedLoader.loadWithin 5 []) "y: !include a.yaml\n" "/top.yaml" =
        .error (.includeCycle ["/a.yaml", "/b.yaml", "/./a.yaml"]) ∧
      sharedLoader.ComesRound ["/a.yaml", "/b.yaml"] "/./a.yaml" := by
  have hapart : AllApart ["/z.yaml"] := List.pairwise_singleton _ _
  have hfile : sharedLoader.loadWithin 5 [] "top.yaml" =
      .error (.includeCycle ["/top.yaml", "/a.yaml", "/b.yaml", "/./a.yaml"]) :=
    eq_of_cycle? (by decide +kernel)
  have htext : sharedLoader.loadText (sharedLoader.loadWithin 5 []) "y: !include a.yaml\n"
      "/top.yaml" = .error (.includeCycle ["/a.yaml", "/b.yaml", "/./a.yaml"]) :=
    eq_of_cycle? (by decide +kernel)
  obtain ⟨hminds, hcycles, htexts⟩ := chain_of_load sharedLoader 5
  obtain ⟨-, files, last, hc, hround, hself⟩ := hcycles _ _ hfile
  obtain ⟨files', last', hc', hround', -⟩ := htexts _ _ _ htext
  have hsplit : ["/top.yaml", "/a.yaml", "/b.yaml"] ++ ["/./a.yaml"] = files ++ [last] := hc
  have hsplit' : ["/a.yaml", "/b.yaml"] ++ ["/./a.yaml"] = files' ++ [last'] := hc'
  obtain ⟨rfl, hlast⟩ := List.append_inj' hsplit rfl
  obtain ⟨rfl, hlast'⟩ := List.append_inj' hsplit' rfl
  obtain rfl := List.singleton_inj.mp hlast
  obtain rfl := List.singleton_inj.mp hlast'
  exact ⟨hapart, (hminds _ hapart).1 _, hfile, hround, hself _ (by decide), htext, hround'⟩

end Loader

end DeviceScript
