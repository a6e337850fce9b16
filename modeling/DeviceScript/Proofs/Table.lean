import DeviceScript.Table
import Mathlib.Data.List.Sort
import Mathlib.Data.String.Basic
/-!
# The order of a table

A table is a list of entries in the order of their names, no name twice.  Every change keeps it so
(`Table.InOrder`), and then what is found under a name is the entry of that name
(`Table.InOrder.find?_eq_some_iff`).
-/

namespace DeviceScript.Table

variable {α : Type} {t : Table α} {name : String} {value : α}

/-- The entries stand in the order of their names, no name twice. -/
def InOrder (t : Table α) : Prop := t.Pairwise fun e e' => e.1 < e'.1

theorem inOrder_nil : InOrder ([] : Table α) := .nil

theorem eq_or_mem_of_mem_insert {e : String × α} (h : e ∈ insert name value t) :
    e = (name, value) ∨ e ∈ t := by
  induction t with
  | nil => exact .inl (List.mem_singleton.mp h)
  | cons x t ih =>
    unfold insert at h
    split at h
    · exact List.mem_cons.mp h
    · split at h
      · exact (List.mem_cons.mp h).imp_right (List.mem_cons_of_mem _)
      · rcases List.mem_cons.mp h with rfl | h
        · exact .inr List.mem_cons_self
        · exact (ih h).imp_right (List.mem_cons_of_mem _)

namespace InOrder

theorem insert (h : InOrder t) (name : String) (value : α) :
    InOrder (Table.insert name value t) := by
  induction t with
  | nil => exact List.pairwise_singleton _ _
  | cons x t ih =>
    obtain ⟨hx, ht⟩ := List.pairwise_cons.mp h
    unfold Table.insert
    split
    · rename_i hlt
      refine List.pairwise_cons.mpr ⟨List.forall_mem_cons.mpr ⟨hlt, fun e he => ?_⟩, h⟩
      exact lt_trans hlt (hx e he)
    · rename_i hge
      split
      · rename_i heq
        exact List.pairwise_cons.mpr ⟨fun e he => heq ▸ hx e he, ht⟩
      · rename_i hne
        have hgt : x.1 < name := lt_of_le_of_ne (not_lt.mp hge) (Ne.symm hne)
        refine List.pairwise_cons.mpr ⟨fun e he => ?_, ih ht⟩
        rcases eq_or_mem_of_mem_insert he with rfl | he
        · exact hgt
        · exact hx e he

theorem erase (h : InOrder t) (name : String) : InOrder (t.erase name) :=
  List.Pairwise.filter _ h

theorem update (h : InOrder t) (name : String) (f : α → α) : InOrder (t.update name f) := by
  have hfst : ∀ e : String × α, (if e.1 = name then (e.1, f e.2) else e).1 = e.1 := by
    intro e
    split <;> rfl
  refine List.pairwise_map.mpr (h.imp fun hlt => ?_)
  rwa [hfst, hfst]

theorem pairwise_names (h : InOrder t) : (names t).Pairwise (· < ·) :=
  List.pairwise_map.mpr h

theorem nodup_names (h : InOrder t) : (names t).Nodup :=
  h.pairwise_names.imp fun hlt => ne_of_lt hlt

/-- **What is found is the entry of that name.** -/
theorem find?_eq_some_iff (h : InOrder t) : t.find? name = some value ↔ (name, value) ∈ t := by
  induction t with
  | nil => simp [find?]
  | cons x t ih =>
    obtain ⟨hx, ht⟩ := List.pairwise_cons.mp h
    obtain ⟨n, v⟩ := x
    unfold find?
    split
    · rename_i heq
      subst heq
      have hnot : (name, value) ∉ t := fun hmem => absurd (hx _ hmem) (lt_irrefl name)
      simp [hnot, eq_comm]
    · rename_i hne
      simp [ih ht, hne]

end InOrder

theorem isSome_find?_iff : (t.find? name).isSome ↔ name ∈ names t := by
  induction t with
  | nil => simp [find?, names]
  | cons x t ih =>
    obtain ⟨n, v⟩ := x
    unfold find? names
    split
    · rename_i heq
      simp [heq]
    · rename_i hne
      rw [ih, names]
      simp [hne]

end DeviceScript.Table
