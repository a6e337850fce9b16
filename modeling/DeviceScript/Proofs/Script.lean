import DeviceScript.Script
/-!
# The lines of a script

A script's lines are numbered from zero in the order in which they stand, so that their numbers grow
from line to line and each number leads back to its line.  That is all that a run needs to know in
order to tell its lines apart.
-/

namespace DeviceScript.Script

/-- The numbers of lines are no smaller than the first. -/
theorem le_of_mem_instructionsFrom : ∀ {k : Nat} {ls : List String} {x : Nat × Instruction},
    x ∈ instructionsFrom k ls → k ≤ x.1
  | k, [], x, h => by cases h
  | k, l :: ls, x, h => by
    rcases List.mem_cons.mp h with rfl | h1
    · exact Nat.le_refl k
    · exact Nat.le_of_succ_le (le_of_mem_instructionsFrom h1)

/-- The numbers of lines grow. -/
theorem pairwise_instructionsFrom : ∀ (k : Nat) (ls : List String),
    ((instructionsFrom k ls).map (·.1)).Pairwise (· < ·)
  | _, [] => List.Pairwise.nil
  | k, l :: ls => by
    simp only [instructionsFrom, List.map_cons, List.pairwise_cons]
    refine ⟨?_, pairwise_instructionsFrom (k + 1) ls⟩
    intro n hn
    obtain ⟨x, hx, rfl⟩ := List.mem_map.mp hn
    exact le_of_mem_instructionsFrom hx

/-- The numbers of a script's lines grow. -/
theorem pairwise_instructions (s : Script) : (s.instructions.map (·.1)).Pairwise (· < ·) :=
  pairwise_instructionsFrom 0 s.lines

/-- An instruction is that of the line with its number. -/
theorem exists_line_of_mem {s : Script} {x : Nat × Instruction} (h : x ∈ s.instructions) :
    ∃ l, s.line? x.1 = some l ∧ x.2 = Instruction.classify l := by
  have key : ∀ (ls : List String) (k : Nat), x ∈ instructionsFrom k ls →
      ∃ j l, x = (k + j, Instruction.classify l) ∧ ls[j]? = some l := by
    intro ls
    induction ls with
    | nil => exact fun _ h => nomatch h
    | cons l ls ih =>
      intro k h
      rcases List.mem_cons.mp h with rfl | h
      · exact ⟨0, l, rfl, rfl⟩
      · obtain ⟨j, l', rfl, hj⟩ := ih (k + 1) h
        exact ⟨j + 1, l', by rw [Nat.add_assoc, Nat.add_comm 1 j], hj⟩
  obtain ⟨j, l, rfl, hj⟩ := key s.lines 0 h
  exact ⟨l, by simpa [line?] using hj, rfl⟩

/-- A script with a line has a first instruction. -/
theorem exists_instructions_eq_cons {s : Script} (h : s.lines ≠ []) :
    ∃ x more, s.instructions = x :: more := by
  unfold instructions
  cases hl : s.lines with
  | nil => exact absurd hl h
  | cons l ls => exact ⟨_, _, rfl⟩

end DeviceScript.Script
