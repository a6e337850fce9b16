import DeviceScript.Config.Decode
import Mathlib.Data.List.Forall2
import Mathlib.Data.List.Pairwise
import Mathlib.Data.List.Perm.Basic
/-!
# What the decoders read

Each decoder is described by what a value has to be for it (`Decoder.Reads`).  Tags are passed over by
all of them but the one for a mode, which takes a tag for the name of the mode (`Decoder.MeansMode`).
For a record that is said of its entries: every key is the name of a field, no field is named twice
(`Decoder.WellKeyed`), and a field is what the entry of that name means, or the standard where there
is none (`Decoder.FieldIs`).

A record is read into a draft, one entry after the other.  Two facts about the fields of a draft
carry the induction over the entries: a field can be taken in once, and the other fields stay as
they were (`Decoder.IsSlot`).  So a draft takes in all entries exactly when their keys are well
chosen and each of them could have been taken in first (`Decoder.exists_taking_iff`).

None of that looks at the order of the entries, at any depth of a value (`Yaml.Value.Rearranged`).
-/

namespace DeviceScript

open Yaml (Value)

namespace Decoder

variable {α β δ : Type} {v w key : Value} {a b : α} {name n m : String}

/-! ## 1. Scalars and lists -/

/-- The decoder accepts exactly the values that mean something, and gives what they mean. -/
def Reads (read : Decoder α) (Means : Value → α → Prop) : Prop :=
  ∀ v a, read v = .ok a ↔ Means v a

theorem Reads.unique {read : Decoder α} {Means : Value → α → Prop} (h : Reads read Means)
    (ha : Means v a) (hb : Means v b) : a = b :=
  Except.ok.inj (((h v a).mpr ha).symm.trans ((h v b).mpr hb))

/-- A whole number that is not negative, tags aside. -/
def MeansNatural (v : Value) (n : Nat) : Prop := untagged v = .int n

def MeansText (v : Value) (s : String) : Prop := untagged v = .text s

def MeansBool (v : Value) (b : Bool) : Prop := untagged v = .bool b

/-- The name of a mode, or nothing with that name for a tag. -/
def MeansMode (v : Value) (m : RunMode) : Prop :=
  v = .text m.name ∨ v = .tagged m.name .null

/-- A sequence of values with these meanings; nothing stands for the empty list. -/
def MeansList (Means : Value → α → Prop) (v : Value) (as : List α) : Prop :=
  (∃ vs, untagged v = .sequence vs ∧ List.Forall₂ Means vs as) ∨ untagged v = .null ∧ as = []

theorem reads_natural (expected : String) : Reads (natural expected) MeansNatural := by
  intro v n
  unfold natural MeansNatural
  split
  · rename_i k hk
    rw [hk]
    constructor
    · rintro ⟨⟩
      rfl
    · rintro ⟨⟩
      rfl
  · rename_i k hne hk
    rw [hk]
    refine iff_of_false nofun ?_
    rintro ⟨⟩
    exact hne _ rfl
  · rename_i h
    exact iff_of_false nofun fun hv => h _ hv

theorem reads_text : Reads text MeansText := by
  intro v s
  unfold text MeansText
  split
  · rename_i t ht
    rw [ht, Except.ok.injEq, Value.text.injEq]
  · rename_i h
    exact iff_of_false nofun fun hv => h _ hv

theorem reads_bool : Reads bool MeansBool := by
  intro v b
  unfold bool MeansBool
  split
  · rename_i c hc
    rw [hc, Except.ok.injEq, Value.bool.injEq]
  · rename_i h
    exact iff_of_false nofun fun hv => h _ hv

theorem modeNamed_eq_ok_iff {m : RunMode} : modeNamed name = .ok m ↔ name = m.name := by
  unfold modeNamed
  constructor
  · intro h
    split at h
    · rename_i m' hm
      cases h
      have hname := List.find?_some hm
      exact (of_decide_eq_true hname).symm
    · cases h
  · rintro rfl
    cases m <;> rfl

theorem reads_mode : Reads mode MeansMode := by
  intro v m
  unfold MeansMode
  cases v with
  | text s => simp [mode, modeNamed_eq_ok_iff]
  | tagged tag v =>
    simp only [mode, reduceCtorEq, false_or, Value.tagged.injEq]
    cases hm : modeNamed tag with
    | error e =>
      refine iff_of_false nofun ?_
      rintro ⟨rfl, -⟩
      rw [modeNamed_eq_ok_iff.mpr rfl] at hm
      cases hm
    | ok m' =>
      obtain rfl := modeNamed_eq_ok_iff.mp hm
      have hname : m' = m ↔ m'.name = m.name := by cases m' <;> cases m <;> decide
      cases v <;> simp [Bind.bind, Except.bind, hname]
  | _ => exact iff_of_false nofun (by simp)

/-- A list is mapped to the list of what its items are mapped to. -/
theorem mapM_eq_ok_iff {ε : Type} {f : α → Except ε β} {xs : List α} {ys : List β} :
    xs.mapM f = .ok ys ↔ List.Forall₂ (fun x y => f x = .ok y) xs ys := by
  induction xs generalizing ys with
  | nil =>
    rw [List.mapM_nil, List.forall₂_nil_left_iff]
    exact ⟨fun h => (Except.ok.inj h).symm, fun h => h ▸ rfl⟩
  | cons x xs ih =>
    rw [List.mapM_cons, List.forall₂_cons_left_iff]
    constructor
    · intro h
      cases hx : f x with
      | error e =>
        rw [hx] at h
        cases h
      | ok y =>
        cases hxs : xs.mapM f with
        | error e =>
          rw [hx, hxs] at h
          cases h
        | ok ys' =>
          rw [hx, hxs] at h
          cases h
          exact ⟨y, ys', rfl, ih.mp hxs, rfl⟩
    · rintro ⟨y, ys', hx, hxs, rfl⟩
      rw [hx, ih.mpr hxs]
      rfl

theorem exists_of_forall₂ {R : α → β → Prop} {xs : List α} {ys : List β} {y : β}
    (h : List.Forall₂ R xs ys) (hy : y ∈ ys) : ∃ x ∈ xs, R x y := by
  induction h with
  | nil => cases hy
  | cons hr _ ih =>
    rcases List.mem_cons.mp hy with rfl | hy
    · exact ⟨_, List.mem_cons_self, hr⟩
    · obtain ⟨x, hx, hr⟩ := ih hy
      exact ⟨x, List.mem_cons_of_mem _ hx, hr⟩

theorem reads_list {item : Decoder α} {Means : Value → α → Prop} (h : Reads item Means) :
    Reads (list item) (MeansList Means) := by
  intro v as
  have hitems : (fun v a => item v = .ok a) = Means := funext₂ fun v a => propext (h v a)
  unfold list MeansList
  split
  · rename_i vs hvs
    simp [hvs, mapM_eq_ok_iff, hitems]
  · rename_i hv
    simp [hv, eq_comm]
  · rename_i hseq hnull
    refine iff_of_false nofun ?_
    rintro (⟨vs, hvs, -⟩ | ⟨hv, -⟩)
    · exact hseq vs hvs
    · exact hnull hv

/-! ## 2. Records -/

/-- The key is this name, tags aside. -/
def IsName (key : Value) (name : String) : Prop := untagged key = .text name

theorem IsName.unique (h : IsName key n) (h' : IsName key m) : n = m :=
  Value.text.inj (h.symm.trans h')

/-- The entries of a mapping; nothing stands for a mapping without any. -/
def HasEntries (v : Value) (es : List (Value × Value)) : Prop :=
  untagged v = .mapping es ∨ untagged v = .null ∧ es = []

/-- The two entries are not of one name. -/
def AreApart (e e' : Value × Value) : Prop := ∀ name, IsName e.1 name → ¬ IsName e'.1 name

instance : Std.Symm AreApart := ⟨fun _ _ h name hy hx => h name hx hy⟩

/-- Every key names a field, and no two keys name the same. -/
structure WellKeyed (known : List String) (es : List (Value × Value)) : Prop where
  known : ∀ e ∈ es, ∃ name ∈ known, IsName e.1 name
  apart : es.Pairwise AreApart

/-- What a field is: what the entry of its name means, or the standard if there is no such entry. -/
def FieldIs (es : List (Value × Value)) (name : String) (Means : Value → α → Prop)
    (standard a : α) : Prop :=
  (∃ e ∈ es, IsName e.1 name ∧ Means e.2 a) ∨ (∀ e ∈ es, ¬ IsName e.1 name) ∧ a = standard

section Records

variable {known : List String} {es es' : List (Value × Value)} {e e' : Value × Value}
  {standard : α} {Means : Value → α → Prop} {read : Decoder α}

theorem HasEntries.unique (h : HasEntries v es) (h' : HasEntries v es') : es = es' := by
  rcases h with h | ⟨h, rfl⟩ <;> rcases h' with h' | ⟨h', rfl⟩
  · exact Value.mapping.inj (h.symm.trans h')
  · cases h.symm.trans h'
  · cases h.symm.trans h'
  · rfl

theorem WellKeyed.mem (h : WellKeyed known es) (he : e ∈ es) (hn : IsName e.1 n) : n ∈ known := by
  obtain ⟨m, hm, hem⟩ := h.known e he
  exact hn.unique hem ▸ hm

/-- There is only one entry of a name. -/
theorem WellKeyed.eq_of_isName (h : WellKeyed known es) (he : e ∈ es) (he' : e' ∈ es)
    (hn : IsName e.1 n) (hn' : IsName e'.1 n) : e = e' := by
  by_contra hne
  exact h.apart.forall he he' hne n hn hn'

theorem FieldIs.unique (hr : Reads read Means) (hk : WellKeyed known es)
    (ha : FieldIs es name Means standard a) (hb : FieldIs es name Means standard b) : a = b := by
  rcases ha with ⟨e, he, hen, hea⟩ | ⟨hnone, rfl⟩ <;>
    rcases hb with ⟨e', he', hen', heb⟩ | ⟨hnone', rfl⟩
  · cases hk.eq_of_isName he he' hen hen'
    exact hr.unique hea heb
  · exact absurd hen (hnone' e he)
  · exact absurd hen' (hnone e' he')
  · rfl

theorem fieldName_eq_ok_iff : fieldName known key = .ok n ↔ IsName key n ∧ n ∈ known := by
  unfold fieldName IsName
  split
  · rename_i s hs
    rw [hs, Value.text.injEq]
    by_cases hk : known.contains s
    · rw [if_pos hk, Except.ok.injEq]
      constructor
      · rintro rfl
        exact ⟨rfl, List.contains_iff_mem.mp hk⟩
      · exact And.left
    · rw [if_neg hk]
      refine iff_of_false nofun ?_
      rintro ⟨rfl, hmem⟩
      exact hk (List.contains_iff_mem.mpr hmem)
  · rename_i h
    exact iff_of_false nofun fun hv => h _ hv.1

/-- A field is taken in when it is free and its value can be read. -/
theorem fresh_eq_ok_iff {before after : Option α} :
    fresh name before read v = .ok after ↔
      before = none ∧ ∃ a, read v = .ok a ∧ after = some a := by
  unfold fresh
  cases before with
  | some b => simp
  | none => cases read v <;> simp [Except.map, eq_comm]

end Records

/-! ## 3. Drafts -/

section Drafts

variable {known : List String} {field : δ → String → Value → Except DecodeError δ} {d d' : δ}
  {slot : δ → Option α} {read : Decoder α} {es : List (Value × Value)}
  {Means : Value → α → Prop} {standard : α}

/-- The draft after some entries. -/
def taking (known : List String) (field : δ → String → Value → Except DecodeError δ) (d : δ)
    (es : List (Value × Value)) : Except DecodeError δ :=
  es.foldlM (fun d e => do field d (← fieldName known e.1) e.2) d

theorem record_eq_ok_iff {expected : String} :
    record expected known field d v = .ok d' ↔
      ∃ es, HasEntries v es ∧ taking known field d es = .ok d' := by
  unfold record HasEntries
  split
  · rename_i es hes
    simp [hes, taking]
  · rename_i hv
    simp [hv, taking, pure, Except.pure]
  · rename_i hmap hnull
    refine iff_of_false nofun ?_
    rintro ⟨es, hes | ⟨hv, -⟩, -⟩
    · exact hmap es hes
    · exact hnull hv

theorem taking_cons_eq_ok_iff {e : Value × Value} :
    taking known field d (e :: es) = .ok d' ↔
      ∃ n d₁, IsName e.1 n ∧ n ∈ known ∧ field d n e.2 = .ok d₁ ∧
        taking known field d₁ es = .ok d' := by
  unfold taking
  rw [List.foldlM_cons]
  constructor
  · intro h
    cases hn : fieldName known e.1 with
    | error err =>
      rw [hn] at h
      cases h
    | ok n =>
      rw [hn] at h
      cases hd : field d n e.2 with
      | error err =>
        simp only [Bind.bind, Except.bind, hd] at h
        cases h
      | ok d₁ =>
        simp only [Bind.bind, Except.bind, hd] at h
        obtain ⟨hname, hmem⟩ := fieldName_eq_ok_iff.mp hn
        exact ⟨n, d₁, hname, hmem, hd, h⟩
  · rintro ⟨n, d₁, hname, hmem, hd, h⟩
    simp only [Bind.bind, Except.bind, fieldName_eq_ok_iff.mpr ⟨hname, hmem⟩, hd]
    exact h

/-- One slot of a draft: it is filled by the field of this name and by no other, at most once, with
what `read` gives. -/
structure IsSlot (known : List String) (field : δ → String → Value → Except DecodeError δ)
    (name : String) (slot : δ → Option α) (read : Decoder α) : Prop where
  own : ∀ {d d' v}, field d name v = .ok d' →
    slot d = none ∧ ∃ a, read v = .ok a ∧ slot d' = some a
  free : ∀ {d v a}, slot d = none → read v = .ok a → ∃ d', field d name v = .ok d'
  other : ∀ {d d' n v}, n ∈ known → n ≠ name → field d n v = .ok d' → slot d' = slot d

/-- Each field has a slot of its own. -/
def AreSlots (known : List String) (field : δ → String → Value → Except DecodeError δ) : Prop :=
  ∀ n ∈ known, ∃ (α : Type) (slot : δ → Option α) (read : Decoder α),
    IsSlot known field n slot read

/-- A field that was taken in cannot be taken in again. -/
theorem AreSlots.once (h : AreSlots known field) (hn : n ∈ known) (hd : field d n v = .ok d') :
    ∀ d'', field d' n w ≠ .ok d'' := by
  obtain ⟨α, slot, read, hs⟩ := h n hn
  intro d'' hd''
  obtain ⟨-, a, -, hfull⟩ := hs.own hd
  rw [(hs.own hd'').1] at hfull
  cases hfull

/-- The other fields can be taken in as before. -/
theorem AreSlots.others (h : AreSlots known field) (hn : n ∈ known) (hm : m ∈ known)
    (hne : m ≠ n) (hd : field d m w = .ok d') :
    (∃ x, field d' n v = .ok x) ↔ ∃ x, field d n v = .ok x := by
  obtain ⟨α, slot, read, hs⟩ := h n hn
  have hslot : slot d' = slot d := hs.other hm hne hd
  constructor
  · rintro ⟨x, hx⟩
    obtain ⟨hfree, a, ha, -⟩ := hs.own hx
    exact hs.free (hslot ▸ hfree) ha
  · rintro ⟨x, hx⟩
    obtain ⟨hfree, a, ha, -⟩ := hs.own hx
    exact hs.free (hslot.trans hfree) ha

/-- **All entries can be taken in** exactly when their keys are well chosen and each of them alone
can be taken in. -/
theorem exists_taking_iff (h : AreSlots known field) :
    (∃ d', taking known field d es = .ok d') ↔
      WellKeyed known es ∧
        ∀ e ∈ es, ∀ n, IsName e.1 n → ∃ d', field d n e.2 = .ok d' := by
  induction es generalizing d with
  | nil => exact iff_of_true ⟨d, rfl⟩ ⟨⟨nofun, .nil⟩, nofun⟩
  | cons e es ih =>
    constructor
    · rintro ⟨d', ht⟩
      obtain ⟨n, d₁, hname, hmem, hd, hrest⟩ := taking_cons_eq_ok_iff.mp ht
      obtain ⟨hkeys, hfields⟩ := ih.mp ⟨d', hrest⟩
      -- an entry of the same name would have been refused
      have hne : ∀ x ∈ es, ¬ IsName x.1 n := fun x hx hxn =>
        (hfields x hx n hxn).elim (h.once hmem hd)
      refine ⟨⟨List.forall_mem_cons.mpr ⟨⟨n, hmem, hname⟩, hkeys.known⟩,
        List.pairwise_cons.mpr ⟨fun x hx m hm => hname.unique hm ▸ hne x hx, hkeys.apart⟩⟩,
        List.forall_mem_cons.mpr ⟨fun m hm => hname.unique hm ▸ ⟨d₁, hd⟩, fun x hx m hm => ?_⟩⟩
      have hnm : n ≠ m := fun heq => hne x hx (heq ▸ hm)
      exact (h.others (hkeys.mem hx hm) hmem hnm hd).mp (hfields x hx m hm)
    · rintro ⟨hkeys, hfields⟩
      obtain ⟨⟨n, hmem, hname⟩, hknown⟩ := List.forall_mem_cons.mp hkeys.known
      obtain ⟨hne, hapart⟩ := List.pairwise_cons.mp hkeys.apart
      obtain ⟨hfield, hfields⟩ := List.forall_mem_cons.mp hfields
      obtain ⟨d₁, hd⟩ := hfield n hname
      have hrest : WellKeyed known es := ⟨hknown, hapart⟩
      obtain ⟨d', ht⟩ := (ih (d := d₁)).mpr ⟨hrest, fun x hx m hm => by
        have hnm : n ≠ m := fun heq => hne x hx n hname (heq ▸ hm)
        exact (h.others (hrest.mem hx hm) hmem hnm hd).mpr (hfields x hx m hm)⟩
      exact ⟨d', taking_cons_eq_ok_iff.mpr ⟨n, d₁, hname, hmem, hd, ht⟩⟩

/-- What a slot holds after some entries. -/
theorem IsSlot.after_taking (h : IsSlot known field name slot read)
    (ht : taking known field d es = .ok d') :
    (∃ e ∈ es, IsName e.1 name ∧ slot d = none ∧ ∃ a, read e.2 = .ok a ∧ slot d' = some a) ∨
      (∀ e ∈ es, ¬ IsName e.1 name) ∧ slot d' = slot d := by
  induction es generalizing d with
  | nil =>
    cases ht
    exact .inr ⟨nofun, rfl⟩
  | cons e es ih =>
    obtain ⟨n, d₁, hname, hmem, hd, hrest⟩ := taking_cons_eq_ok_iff.mp ht
    by_cases hn : n = name
    · subst hn
      obtain ⟨hfree, a, ha, hfull⟩ := h.own hd
      rcases ih hrest with ⟨x, -, -, hfree₁, -⟩ | ⟨-, hsame⟩
      · cases hfree₁.symm.trans hfull
      · exact .inl ⟨e, List.mem_cons_self, hname, hfree, a, ha, hsame.trans hfull⟩
    · have hslot : slot d₁ = slot d := h.other hmem hn hd
      rcases ih hrest with ⟨x, hx, hxn, hfree, a, ha, hfull⟩ | ⟨hnone, hsame⟩
      · exact .inl ⟨x, List.mem_cons_of_mem e hx, hxn, hslot ▸ hfree, a, ha, hfull⟩
      · exact .inr ⟨List.forall_mem_cons.mpr ⟨fun he => hn (hname.unique he), hnone⟩,
          hsame.trans hslot⟩

/-- A slot that was free holds what the field is. -/
theorem IsSlot.fieldIs (h : IsSlot known field name slot read) (hr : Reads read Means)
    (hd : slot d = none) (ht : taking known field d es = .ok d') (standard : α) :
    FieldIs es name Means standard ((slot d').getD standard) := by
  rcases h.after_taking ht with ⟨e, he, hname, -, a, ha, hfull⟩ | ⟨hnone, hsame⟩
  · rw [hfull]
    exact .inl ⟨e, he, hname, (hr _ _).mp ha⟩
  · rw [hsame, hd]
    exact .inr ⟨hnone, rfl⟩

/-- A field that is something can be taken in. -/
theorem IsSlot.exists_field (h : IsSlot known field name slot read) (hr : Reads read Means)
    (hd : slot d = none) (hk : WellKeyed known es) (hf : FieldIs es name Means standard a) :
    ∀ e ∈ es, IsName e.1 name → ∃ d', field d name e.2 = .ok d' := by
  intro e he hname
  rcases hf with ⟨e', he', hname', hmeans⟩ | ⟨hnone, -⟩
  · cases hk.eq_of_isName he he' hname hname'
    exact h.free hd ((hr _ _).mpr hmeans)
  · exact absurd hname (hnone e he)

end Drafts

end Decoder

/-! ## 4. The order of entries -/

/-- The values differ at most in the order of the entries of mappings, at any depth. -/
inductive Yaml.Value.Rearranged : Value → Value → Prop
  | same (v : Value) : Rearranged v v
  | tagged (tag : String) {v w : Value} (h : Rearranged v w) :
    Rearranged (.tagged tag v) (.tagged tag w)
  | sequence {vs ws : List Value} (h : List.Forall₂ Rearranged vs ws) :
    Rearranged (.sequence vs) (.sequence ws)
  | mapping {es fs gs : List (Value × Value)} (hp : es.Perm fs)
    (hk : List.Forall₂ Rearranged (fs.map Prod.fst) (gs.map Prod.fst))
    (hv : List.Forall₂ Rearranged (fs.map Prod.snd) (gs.map Prod.snd)) :
    Rearranged (.mapping es) (.mapping gs)

open Yaml.Value (Rearranged)

namespace Decoder

/-- The meaning does not look at the order of entries. -/
def IsOrderless {α : Type} (Means : Value → α → Prop) : Prop :=
  ∀ v w a, Rearranged v w → (Means v a ↔ Means w a)

variable {α : Type} {v w key key' : Value} {name : String} {es fs gs : List (Value × Value)}
  {Means : Value → α → Prop}

theorem rearranged_untagged (h : Rearranged v w) : Rearranged (untagged v) (untagged w) := by
  induction v using untagged.induct generalizing w with
  | case1 tag v ih =>
    cases h with
    | same => exact .same _
    | tagged _ h =>
      rw [untagged, untagged]
      exact ih h
  | case2 v hsolid =>
    cases h with
    | same => exact .same _
    | tagged tag h => exact absurd rfl (hsolid tag _)
    | sequence h => exact .sequence h
    | mapping hp hk hv => exact .mapping hp hk hv

/-- A scalar stays the same scalar. -/
theorem untagged_eq_iff {c : Value} (h : Rearranged v w)
    (hc : ∀ u, Rearranged u c ∨ Rearranged c u → u = c) : untagged v = c ↔ untagged w = c := by
  have hvw := rearranged_untagged h
  constructor
  · rintro hv
    exact hc _ (.inr (hv ▸ hvw))
  · rintro hw
    exact hc _ (.inl (hw ▸ hvw))

theorem isName_iff (h : Rearranged key key') : IsName key name ↔ IsName key' name :=
  untagged_eq_iff h (by rintro u (hu | hu) <;> cases hu <;> rfl)

theorem isOrderless_natural : IsOrderless MeansNatural := fun _ _ _ h =>
  untagged_eq_iff h (by rintro u (hu | hu) <;> cases hu <;> rfl)

theorem isOrderless_text : IsOrderless MeansText := fun _ _ _ h =>
  untagged_eq_iff h (by rintro u (hu | hu) <;> cases hu <;> rfl)

theorem isOrderless_bool : IsOrderless MeansBool := fun _ _ _ h =>
  untagged_eq_iff h (by rintro u (hu | hu) <;> cases hu <;> rfl)

theorem isOrderless_mode : IsOrderless MeansMode := by
  intro v w m h
  unfold MeansMode
  cases h with
  | same => rfl
  | tagged tag h =>
    have hnull : ∀ {x y}, Rearranged x y → (x = .null ↔ y = .null) := by
      intro x y h
      cases h <;> simp
    simp [hnull h]
  | _ => simp

/-- Lists of values that are alike one by one mean the same. -/
theorem forall₂_iff {R : Value → Value → Prop} {vs ws : List Value} {as : List α}
    (h : List.Forall₂ R vs ws) (hR : ∀ v w a, R v w → (Means v a ↔ Means w a)) :
    List.Forall₂ Means vs as ↔ List.Forall₂ Means ws as := by
  induction h generalizing as with
  | nil => rfl
  | cons hx _ ih =>
    cases as with
    | nil => exact iff_of_false nofun nofun
    | cons a as => rw [List.forall₂_cons, List.forall₂_cons, hR _ _ _ hx, ih]

theorem isOrderless_list (h : IsOrderless Means) : IsOrderless (MeansList Means) := by
  intro v w as hvw
  unfold MeansList
  have hu := rearranged_untagged hvw
  cases hv : untagged v <;> cases hw : untagged w <;> rw [hv, hw] at hu <;> cases hu
  case sequence.sequence.sequence h' => simp [forall₂_iff h' h]
  all_goals simp

/-! ### Entries -/

/-- The entries differ in their order, and keys and values as values do. -/
def EntriesRearranged (es gs : List (Value × Value)) : Prop :=
  ∃ fs, es.Perm fs ∧
    List.Forall₂ (fun e e' => Rearranged e.1 e'.1 ∧ Rearranged e.2 e'.2) fs gs

theorem entriesRearranged_of_forall₂ (hp : es.Perm fs)
    (hk : List.Forall₂ Rearranged (fs.map Prod.fst) (gs.map Prod.fst))
    (hv : List.Forall₂ Rearranged (fs.map Prod.snd) (gs.map Prod.snd)) :
    EntriesRearranged es gs := by
  refine ⟨fs, hp, ?_⟩
  clear hp
  induction fs generalizing gs with
  | nil =>
    cases gs with
    | nil => exact .nil
    | cons e gs => cases hk
  | cons e fs ih =>
    cases gs with
    | nil => cases hk
    | cons e' gs =>
      obtain ⟨hke, hk⟩ := List.forall₂_cons.mp hk
      obtain ⟨hve, hv⟩ := List.forall₂_cons.mp hv
      exact .cons ⟨hke, hve⟩ (ih hk hv)

theorem hasEntries_iff (h : Rearranged v w) :
    (∀ es, HasEntries v es → ∃ gs, HasEntries w gs ∧ EntriesRearranged es gs) ∧
      ∀ gs, HasEntries w gs → ∃ es, HasEntries v es ∧ EntriesRearranged es gs := by
  have hsame : ∀ es, EntriesRearranged es es := fun es =>
    ⟨es, .refl es, List.forall₂_same.mpr fun e _ => ⟨.same _, .same _⟩⟩
  have hu := rearranged_untagged h
  unfold HasEntries
  cases hv : untagged v <;> cases hw : untagged w <;> rw [hv, hw] at hu <;> cases hu
  case mapping.mapping.mapping es gs fs hp hk hv =>
    have hes := entriesRearranged_of_forall₂ hp hk hv
    simp [hes]
  all_goals simp [hsame]

section Transfer

variable {R : Value × Value → Value × Value → Prop} {P Q : Value × Value → Prop}

theorem forall_mem_iff_of_forall₂ (h : List.Forall₂ R fs gs) (hPQ : ∀ e e', R e e' → (P e ↔ Q e')) :
    (∀ e ∈ fs, P e) ↔ ∀ e ∈ gs, Q e := by
  induction h with
  | nil => simp
  | cons he _ ih => rw [List.forall_mem_cons, List.forall_mem_cons, hPQ _ _ he, ih]

theorem forall_mem_iff (h : EntriesRearranged es gs)
    (hPQ : ∀ e e', Rearranged e.1 e'.1 → Rearranged e.2 e'.2 → (P e ↔ Q e')) :
    (∀ e ∈ es, P e) ↔ ∀ e ∈ gs, Q e := by
  obtain ⟨fs, hp, hfs⟩ := h
  rw [← forall_mem_iff_of_forall₂ hfs fun e e' he => hPQ e e' he.1 he.2]
  exact forall_congr' fun e => by rw [hp.mem_iff]

theorem exists_mem_iff (h : EntriesRearranged es gs)
    (hPQ : ∀ e e', Rearranged e.1 e'.1 → Rearranged e.2 e'.2 → (P e ↔ Q e')) :
    (∃ e ∈ es, P e) ↔ ∃ e ∈ gs, Q e := by
  have hnot := forall_mem_iff (P := fun e => ¬ P e) (Q := fun e => ¬ Q e) h
    fun e e' hk hv => not_congr (hPQ e e' hk hv)
  simpa using not_congr hnot

end Transfer

theorem areApart_iff {e e' x x' : Value × Value} (he : Rearranged e.1 e'.1)
    (hx : Rearranged x.1 x'.1) : AreApart e x ↔ AreApart e' x' := by
  unfold AreApart
  simp only [isName_iff he, isName_iff hx]

theorem pairwise_areApart_iff (h : EntriesRearranged es gs) :
    es.Pairwise AreApart ↔ gs.Pairwise AreApart := by
  obtain ⟨fs, hp, hfs⟩ := h
  have hperm : es.Pairwise AreApart ↔ fs.Pairwise AreApart :=
    hp.pairwise_iff fun h => Std.Symm.symm _ _ h
  rw [hperm]
  clear hp hperm
  induction hfs with
  | nil => rfl
  | cons he hrest ih =>
    rw [List.pairwise_cons, List.pairwise_cons]
    exact and_congr (forall_mem_iff_of_forall₂ hrest fun x x' hx => areApart_iff he.1 hx.1) ih

/-- Whether keys are well chosen does not depend on their order. -/
theorem wellKeyed_iff {known : List String} (h : EntriesRearranged es gs) :
    WellKeyed known es ↔ WellKeyed known gs := by
  have hknown : (∀ e ∈ es, ∃ name ∈ known, IsName e.1 name) ↔
      ∀ e ∈ gs, ∃ name ∈ known, IsName e.1 name :=
    forall_mem_iff h fun e e' hk _ => by simp only [isName_iff hk]
  have hapart := pairwise_areApart_iff h
  exact ⟨fun hk => ⟨hknown.mp hk.known, hapart.mp hk.apart⟩,
    fun hk => ⟨hknown.mpr hk.known, hapart.mpr hk.apart⟩⟩

/-- What a field is does not depend on the order of the entries. -/
theorem fieldIs_iff {standard a : α} (h : EntriesRearranged es gs) (hm : IsOrderless Means) :
    FieldIs es name Means standard a ↔ FieldIs gs name Means standard a := by
  unfold FieldIs
  rw [exists_mem_iff h fun e e' hk hv => and_congr (isName_iff hk) (hm _ _ _ hv),
    forall_mem_iff h fun e e' hk _ => not_congr (isName_iff hk)]

end Decoder

end DeviceScript
