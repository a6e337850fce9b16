import DeviceScript.Log.Event
/-!
# The log buffer

A buffer keeps the newest log events, up to its capacity, so that someone who comes late can read
what has happened.  The events are a list from the oldest to the newest; a push drops the oldest
when there are too many (`entries_push`), and never leaves more than the capacity (`size_le`).
-/

namespace DeviceScript.Log

/-- The newest events, at most `capacity` of them, the oldest first. -/
structure Buffer where
  capacity : Nat
  entries : List Event
  capacity_pos : 0 < capacity
  size_le : entries.length ≤ capacity

namespace Buffer

/-- The capacity of a buffer for which none is asked. -/
def defaultCapacity : Nat := 1000

/-- An empty buffer; a capacity of zero counts as one. -/
def empty (capacity : Nat) : Buffer :=
  ⟨max capacity 1, [], by omega, by simp⟩

/-- The events after a push. -/
def pushed (b : Buffer) (e : Event) : List Event :=
  if b.entries.length < b.capacity then b.entries ++ [e] else b.entries.drop 1 ++ [e]

theorem length_pushed_le (b : Buffer) (e : Event) : (b.pushed e).length ≤ b.capacity := by
  have h₁ := b.size_le
  have h₂ := b.capacity_pos
  unfold pushed
  split <;> simp <;> omega

/-- The buffer with one more event, and without its oldest one if it was full. -/
def push (b : Buffer) (e : Event) : Buffer :=
  ⟨b.capacity, b.pushed e, b.capacity_pos, b.length_pushed_le e⟩

/-- The buffer without its events. -/
def clear (b : Buffer) : Buffer :=
  { b with entries := [], size_le := by simp }

/-- The number of events. -/
def size (b : Buffer) : Nat :=
  b.entries.length

/-- The newest events, at most `count` of them, the oldest first. -/
def recent (b : Buffer) (count : Nat) : List Event :=
  b.entries.drop (b.size - count)

/-- The number of events of this kind. -/
def count (b : Buffer) (kind : Kind) : Nat :=
  (b.entries.filter (·.kind = kind)).length

/-- After a push the buffer holds the last events of the old ones and the new one. -/
theorem entries_push (b : Buffer) (e : Event) :
    (b.push e).entries = (b.entries ++ [e]).drop (b.entries.length + 1 - b.capacity) := by
  have h₁ := b.size_le
  have h₂ := b.capacity_pos
  by_cases h : b.entries.length < b.capacity
  · have : b.entries.length + 1 - b.capacity = 0 := by omega
    simp [push, pushed, h, this]
  · have : b.entries.length + 1 - b.capacity = 1 := by omega
    rw [this, List.drop_append_of_le_length (by omega)]
    simp [push, pushed, h]

end Buffer

end DeviceScript.Log
