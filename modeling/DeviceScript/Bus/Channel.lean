/-!
# Channels

A channel passes values to any number of receivers.  It keeps its newest values, as many as its
capacity, and counts all that were ever sent, so that a receiver is no more than a number: how many
values were sent before the one it reads next.

A receiver that fell behind by more than the channel keeps is told once how many values it missed,
and goes on with the oldest value kept.  `unread` is what a receiver still has to read; `receive`
takes the first of it (`receive_of_unread`), and a send adds to its end (`unread_send`) as long as
the receiver has not fallen behind.
-/

namespace DeviceScript

/-- What a receiver gets when it asks. -/
inductive Received (α : Type) where
  | value (v : α)
  /-- So many values were missed. -/
  | lagged (missed : Nat)
  /-- There is nothing to read yet. -/
  | empty
  /-- There is nothing to read any more. -/
  | closed
  deriving Repr, DecidableEq

/-- The newest values, the oldest first, and the number of all values ever sent. -/
structure Channel (α : Type) where
  capacity : Nat
  kept : List α
  sent : Nat
  isOpen : Bool

namespace Channel

variable {α : Type}

/-- How many values a channel keeps that is asked to keep some number of them: the least power of two
that is not below. -/
def roundUp (capacity : Nat) : Nat :=
  if capacity ≤ 1 then 1 else Nat.pow 2 ((capacity - 1).log2 + 1)

/-- A channel that keeps at least `capacity` values. -/
def ofCapacity (capacity : Nat) : Channel α :=
  ⟨roundUp capacity, [], 0, true⟩

/-- The channel after one more value was sent. -/
def send (c : Channel α) (v : α) : Channel α :=
  { c with
    kept := (c.kept ++ [v]).drop (c.kept.length + 1 - c.capacity)
    sent := c.sent + 1 }

/-- The channel to which nothing will be sent any more. -/
def close (c : Channel α) : Channel α :=
  { c with isOpen := false }

/-- The number of values that were sent before the oldest one kept. -/
def oldest (c : Channel α) : Nat :=
  c.sent - c.kept.length

/-- The kept values that a receiver which has read up to `next` has still to read. -/
def unread (c : Channel α) (next : Nat) : List α :=
  c.kept.drop (next - c.oldest)

/-- What a receiver gets when nothing is left to read. -/
def nothing {β : Type} (c : Channel α) : Received β :=
  if c.isOpen then .empty else .closed

/-- What a receiver that has read up to `next` gets, and how far it has read then. -/
def receive (c : Channel α) (next : Nat) : Received α × Nat :=
  if next < c.oldest then (.lagged (c.oldest - next), c.oldest)
  else match c.unread next with
    | [] => (c.nothing, next)
    | v :: _ => (.value v, next + 1)

/-- What a receiver gets that looks only for values that `read` can make sense of; the others are
passed over.  Missed values are reported all the same, since nobody knows what they were. -/
def receiveOnly {β : Type} (read : α → Option β) (c : Channel α) (next : Nat) : Received β × Nat :=
  if next < c.oldest then (.lagged (c.oldest - next), c.oldest)
  else
    let rest := c.unread next
    let passed := (rest.takeWhile fun v => (read v).isNone).length
    match (rest.drop passed).head?.bind read with
    | none => (c.nothing, next + passed)
    | some w => (.value w, next + passed + 1)

/-- A receiver that has not fallen behind gets the first value it has still to read. -/
theorem receive_of_unread {c : Channel α} {next : Nat} {v : α} {r : List α}
    (h : c.oldest ≤ next) (hu : c.unread next = v :: r) :
    c.receive next = (.value v, next + 1) := by
  rw [receive, if_neg (by omega), hu]

/-- A value sent is the last thing that a receiver within reach has to read. -/
theorem unread_send {c : Channel α} {next : Nat} (v : α) (hk : c.kept.length ≤ c.sent)
    (h : (c.send v).oldest ≤ next) (hn : next ≤ c.sent) :
    (c.send v).unread next = c.unread next ++ [v] := by
  simp only [send, oldest, unread, List.length_drop, List.length_append,
    List.length_singleton] at h ⊢
  rw [List.drop_drop, List.drop_append_of_le_length]
  · congr 2
    omega
  · omega

end Channel

end DeviceScript
