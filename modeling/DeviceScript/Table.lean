/-!
# Tables

A table is a finite map from names, kept as a list of entries in the order of their names.  The
order of names is that of their characters' numbers, which is also the order of their UTF-8 bytes.

A look-up in a table that was changed is settled by `find?_insert`, `find?_erase` and
`find?_update`.
-/

namespace DeviceScript

/-- A finite map from names: the entries in the order of their names. -/
abbrev Table (α : Type) := List (String × α)

namespace Table

variable {α : Type}

/-- The value under a name. -/
def find? : Table α → String → Option α
  | [], _ => none
  | (n, v) :: r, name => if name = n then some v else find? r name

/-- Whether the table has an entry under a name. -/
def contains (t : Table α) (name : String) : Bool :=
  (t.find? name).isSome

/-- The table with this value under this name; an entry that was there is replaced. -/
def insert (name : String) (value : α) : Table α → Table α
  | [] => [(name, value)]
  | (n, v) :: r =>
    if name < n then (name, value) :: (n, v) :: r
    else if name = n then (name, value) :: r
    else (n, v) :: insert name value r

/-- The table without the entry under this name. -/
def erase (t : Table α) (name : String) : Table α :=
  t.filter (·.1 ≠ name)

/-- The table with the value under this name changed; without such an entry nothing changes. -/
def update (t : Table α) (name : String) (f : α → α) : Table α :=
  t.map fun e => if e.1 = name then (e.1, f e.2) else e

/-- The table that has the later of these entries under each name. -/
def ofEntries (entries : List (String × α)) : Table α :=
  entries.foldl (fun t e => insert e.1 e.2 t) []

/-- The names of the entries. -/
def names (t : Table α) : List String :=
  t.map (·.1)

/-- A look-up after an insertion finds the new value under its name and otherwise what was
there. -/
theorem find?_insert (t : Table α) (name : String) (value : α) (other : String) :
    (insert name value t).find? other = if other = name then some value else t.find? other := by
  induction t with
  | nil => simp [insert, find?]
  | cons e r ih =>
    obtain ⟨n, v⟩ := e
    by_cases h₁ : name < n
    · simp [insert, h₁, find?]
    · by_cases h₂ : name = n
      · subst h₂
        rw [insert, if_neg h₁, if_pos rfl]
        by_cases h : other = name <;> simp [find?, h]
      · by_cases h : other = n
        · subst h
          simp [insert, h₁, h₂, find?, Ne.symm h₂]
        · simp [insert, h₁, h₂, find?, h, ih]

/-- A look-up after a removal finds nothing under that name and otherwise what was there. -/
theorem find?_erase (t : Table α) (name other : String) :
    (t.erase name).find? other = if other = name then none else t.find? other := by
  induction t with
  | nil => simp [erase, find?]
  | cons e r ih =>
    obtain ⟨n, v⟩ := e
    simp only [erase] at ih ⊢
    by_cases hn : n = name
    · subst hn
      by_cases h : other = n <;> simp_all [find?]
    · by_cases h : other = n
      · subst h
        simp [hn, find?]
      · simpa [hn, find?, h] using ih

/-- A look-up after a change finds the changed value under its name and otherwise what was there. -/
theorem find?_update (t : Table α) (name : String) (f : α → α) (other : String) :
    (t.update name f).find? other =
      if other = name then (t.find? other).map f else t.find? other := by
  induction t with
  | nil => simp [update, find?]
  | cons e r ih =>
    obtain ⟨n, v⟩ := e
    simp only [update, List.map_cons] at ih ⊢
    by_cases hn : n = name
    · subst hn
      by_cases h : other = n
      · simp [find?, h]
      · simpa [find?, h] using ih
    · by_cases h : other = n
      · subst h
        simp [find?, hn]
      · simpa [find?, hn, h] using ih

end Table

end DeviceScript
