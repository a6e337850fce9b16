import DeviceScript.Yaml.Read
/-!
# Whole numbers that are read

A whole number in a value that was read from a text has at most 64 bits, signed or unsigned
(`Yaml.fitsWords_of_read?`).  Scalars are read so, and everything else is put together from
scalars: the induction is on how deep the collections of a document may be nested.
-/

namespace DeviceScript.Yaml

/-- The least number without a sign that has more than 64 bits. -/
def wordBound : Nat := Nat.pow 2 64

/-- The number has at most 64 bits, signed or unsigned. -/
def FitsWord (n : Int) : Prop := -(Nat.pow 2 63 : Nat) ≤ n ∧ n < wordBound

/-- All whole numbers in the value have at most 64 bits. -/
inductive Value.FitsWords : Value → Prop
  | null : FitsWords .null
  | bool (b : Bool) : FitsWords (.bool b)
  | int {n : Int} (h : FitsWord n) : FitsWords (.int n)
  | float (x : Decimal.Double) : FitsWords (.float x)
  | text (s : String) : FitsWords (.text s)
  | sequence {items : List Value} (h : ∀ v ∈ items, FitsWords v) : FitsWords (.sequence items)
  | mapping {entries : List (Value × Value)} (hk : ∀ e ∈ entries, FitsWords e.1)
    (hv : ∀ e ∈ entries, FitsWords e.2) : FitsWords (.mapping entries)
  | tagged (tag : String) {v : Value} (h : FitsWords v) : FitsWords (.tagged tag v)

variable {cs : List Char} {s : String} {n : Int} {v : Value} {bound : Nat}

/-! ## 1. Scalars -/

theorem lt_of_readMarked? {k : Nat} (h : readMarked? bound cs = some k) : k < bound := by
  unfold readMarked? at h
  split at h
  · simpa using (Option.filter_eq_some_iff.mp h).2
  · simpa using (Option.filter_eq_some_iff.mp h).2
  · simpa using (Option.filter_eq_some_iff.mp h).2
  · cases h

theorem range_of_readPositive? (h : readPositive? bound cs = some n) : 0 ≤ n ∧ n < bound := by
  unfold readPositive? at h
  extract_lets unsigned at h
  clear_value unsigned
  split at h
  · rename_i k hk
    cases h
    exact ⟨Int.natCast_nonneg k, Int.ofNat_lt.mpr (lt_of_readMarked? hk)⟩
  · split at h
    · cases h
    · obtain ⟨k, hk, rfl⟩ := Option.map_eq_some_iff.mp h
      have hlt : k < bound := by simpa using (Option.filter_eq_some_iff.mp hk).2
      exact ⟨Int.natCast_nonneg k, Int.ofNat_lt.mpr hlt⟩

theorem range_of_readNegative? (h : readNegative? bound cs = some n) : -bound ≤ n ∧ n ≤ 0 := by
  unfold readNegative? at h
  split at h
  · split at h
    · rename_i k hk
      cases h
      have hlt := lt_of_readMarked? hk
      omega
    · split at h
      · cases h
      · obtain ⟨i, hi, rfl⟩ := Option.map_eq_some_iff.mp h
        obtain ⟨k, hk, hki⟩ := Option.bind_eq_some_iff.mp hi
        cases hki
        have hle : k ≤ bound := by simpa using (Option.filter_eq_some_iff.mp hk).2
        omega
  · cases h

theorem fitsWord_of_readWhole? (h : readWhole? 64 cs = some n) : FitsWord n := by
  unfold readWhole? at h
  unfold FitsWord
  split at h
  · rename_i k hk
    cases h
    obtain ⟨hnonneg, hlt⟩ := range_of_readPositive? hk
    exact ⟨by omega, hlt⟩
  · obtain ⟨hle, hnonpos⟩ := range_of_readNegative? h
    have hpos : 0 < wordBound := by decide
    exact ⟨hle, by omega⟩

theorem fitsWords_of_ofPlain? (h : ofPlain? s = some v) : v.FitsWords := by
  unfold ofPlain? at h
  simp only at h
  split at h
  · cases h
    exact .null
  · split at h
    · cases h
      exact .bool _
    · split at h
      · rename_i n hn
        cases h
        exact .int (fitsWord_of_readWhole? hn)
      · split at h
        · cases h
        · split at h
          · cases h
            exact .float _
          · cases h
            exact .text _

theorem fitsWords_of_ofScalar? {tag : Option String} {plain : Bool}
    (h : ofScalar? tag plain s = some v) : v.FitsWords := by
  unfold ofScalar? at h
  split at h
  · obtain ⟨b, -, rfl⟩ := Option.map_eq_some_iff.mp h
    exact .bool b
  · obtain ⟨n, hn, rfl⟩ := Option.map_eq_some_iff.mp h
    exact .int (fitsWord_of_readWhole? hn)
  · obtain ⟨x, -, rfl⟩ := Option.map_eq_some_iff.mp h
    exact .float x
  · split at h
    · cases h
      exact .null
    · cases h
  · cases h
    exact .text s
  · split at h
    · exact fitsWords_of_ofPlain? h
    · cases h
      exact .text s

/-! ## 2. Documents -/

namespace Document

variable {inner : Bool → Node Nat → Nat → Found Value} {bare : Bool} {jumps jumps' : Nat}

/-- Nothing but values whose numbers fit is found. -/
def Fits (inner : Bool → Node Nat → Nat → Found Value) : Prop :=
  ∀ bare n jumps v jumps', inner bare n jumps = some (v, jumps') → v.FitsWords

theorem Fits.items (hin : Fits inner) {ns : List (Node Nat)} {vs : List Value}
    (h : items inner ns jumps = some (vs, jumps')) : ∀ v ∈ vs, v.FitsWords := by
  induction ns generalizing vs jumps jumps' with
  | nil =>
    cases h
    exact List.forall_mem_nil _
  | cons n r ih =>
    obtain ⟨⟨v, j⟩, hv, h⟩ := Option.bind_eq_some_iff.mp h
    obtain ⟨⟨ws, j'⟩, hws, heq⟩ := Option.map_eq_some_iff.mp h
    cases heq
    exact List.forall_mem_cons.mpr ⟨hin _ _ _ _ _ hv, ih hws⟩

theorem Fits.entries (hin : Fits inner) {es : List (Node Nat × Node Nat)}
    {before vs : List (Value × Value)}
    (hk : ∀ e ∈ before, e.1.FitsWords) (hv : ∀ e ∈ before, e.2.FitsWords)
    (h : entries inner bare before es jumps = some (vs, jumps')) :
    (∀ e ∈ vs, e.1.FitsWords) ∧ ∀ e ∈ vs, e.2.FitsWords := by
  induction es generalizing before jumps with
  | nil =>
    cases h
    exact ⟨hk, hv⟩
  | cons e r ih =>
    obtain ⟨⟨key, j⟩, hkey, h⟩ := Option.bind_eq_some_iff.mp h
    simp only at h
    split at h
    · cases h
    · obtain ⟨⟨v, j'⟩, hval, h⟩ := Option.bind_eq_some_iff.mp h
      refine ih ?_ ?_ h
      · exact List.forall_mem_append.mpr
          ⟨hk, List.forall_mem_singleton.mpr (hin _ _ _ _ _ hkey)⟩
      · exact List.forall_mem_append.mpr
          ⟨hv, List.forall_mem_singleton.mpr (hin _ _ _ _ _ hval)⟩

/-- A tag does not change the numbers. -/
theorem fitsWords_withTag {tag : Option String} (h : v.FitsWords) :
    (match valueTag? bare tag with
      | some t => Value.tagged t v
      | none => v).FitsWords := by
  split
  · exact .tagged _ h
  · exact h

theorem fits_solid {inner : Option (Bool → Node Nat → Nat → Found Value)}
    (hin : ∀ f ∈ inner, Fits f) : Fits (solid inner) := by
  intro bare n jumps v jumps' h
  unfold solid at h
  simp only at h
  split at h
  · cases h
  · obtain ⟨w, hw, heq⟩ := Option.map_eq_some_iff.mp h
    cases heq
    exact fitsWords_withTag (fitsWords_of_ofScalar? hw)
  · obtain ⟨f, hf, h⟩ := Option.bind_eq_some_iff.mp h
    obtain ⟨⟨vs, j⟩, hvs, heq⟩ := Option.map_eq_some_iff.mp h
    cases heq
    exact fitsWords_withTag (.sequence ((hin f hf).items hvs))
  · obtain ⟨f, hf, h⟩ := Option.bind_eq_some_iff.mp h
    obtain ⟨⟨vs, j⟩, hvs, heq⟩ := Option.map_eq_some_iff.mp h
    cases heq
    obtain ⟨hk, hv⟩ :=
      (hin f hf).entries (List.forall_mem_nil _) (List.forall_mem_nil _) hvs
    exact fitsWords_withTag (.mapping hk hv)

/-- Following an alias first makes no difference. -/
theorem fits_follow (d : Document) {inner : Option (Bool → Node Nat → Nat → Found Value)}
    (hin : ∀ f ∈ inner, Fits f) :
    Fits fun bare n jumps => match n with
      | .aliasOf a =>
        if jumps + 1 > d.jumpLimit then none
        else (d.target? a).bind fun n => solid inner false n (jumps + 1)
      | n => solid inner bare n jumps := by
  intro bare n jumps v jumps' h
  simp only at h
  split at h
  · split at h
    · cases h
    · obtain ⟨n, -, h⟩ := Option.bind_eq_some_iff.mp h
      exact fits_solid hin _ _ _ _ _ h
  · exact fits_solid hin _ _ _ _ _ h

theorem fits_value (d : Document) (depth : Nat) : Fits (d.value depth) := by
  induction depth with
  | zero =>
    have hnone : ∀ f ∈ (none : Option (Bool → Node Nat → Nat → Found Value)), Fits f := nofun
    intro bare n jumps v jumps' h
    unfold value at h
    exact fits_follow d hnone _ _ _ _ _ h
  | succ depth ih =>
    have hsome : ∀ f ∈ some (d.value depth), Fits f := by simpa using ih
    intro bare n jumps v jumps' h
    unfold value at h
    exact fits_follow d hsome _ _ _ _ _ h

end Document

/-- **Whole numbers that are read have at most 64 bits.** -/
theorem fitsWords_of_read? (h : read? s = some v) : v.FitsWords := by
  unfold read? at h
  obtain ⟨tokens, -, h⟩ := Option.bind_eq_some_iff.mp h
  obtain ⟨nodes, -, h⟩ := Option.bind_eq_some_iff.mp h
  split at h
  · cases h
    exact .null
  · obtain ⟨⟨n, names⟩, -, h⟩ := Option.bind_eq_some_iff.mp h
    obtain ⟨⟨w, jumps⟩, hw, hvw⟩ := Option.bind_eq_some_iff.mp h
    cases hvw
    exact Document.fits_value _ _ _ _ _ _ _ hw
  · cases h

end DeviceScript.Yaml
