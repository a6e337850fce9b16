import DeviceScript.Bus.Channel
import Mathlib.Order.Bounds.Basic
/-!
# What a receiver is told

A receiver that asks a channel again and again is told of the values sent, one by one, and now and
then how many it missed.  `Accounts rs vs unread` says that the answers `rs` cover the stream `vs`
from its first value on without gap or overlap, and leave `unread` of it: a value covers itself, and
a number of missed values covers as many.

The contents of a channel are a function of the values sent to it, which is what `Channel.Carries`
says.  From it follows what a receiver at any place is told next: `Carries.receive_accounts` is the
step of every account, `Carries.receive_ne_lagged` says who is told of every value, and
`isLeast_roundUp` how far behind a receiver may be for that.
-/

namespace DeviceScript

variable {α : Type}

/-! ## 1. Accounts of a stream -/

/-- These answers tell of the values of a stream in order, and leave some of it unread. -/
inductive Accounts : (rs : List (Received α)) → (vs unread : List α) → Prop where
  | start (vs : List α) : Accounts [] vs vs
  | value {rs : List (Received α)} {v : α} {vs unread : List α} :
      Accounts rs vs unread → Accounts (.value v :: rs) (v :: vs) unread
  | lagged {rs : List (Received α)} {missed vs unread : List α} :
      missed ≠ [] → Accounts rs vs unread →
        Accounts (.lagged missed.length :: rs) (missed ++ vs) unread
  | empty {rs : List (Received α)} {vs unread : List α} :
      Accounts rs vs unread → Accounts (.empty :: rs) vs unread
  | closed {rs : List (Received α)} {vs unread : List α} :
      Accounts rs vs unread → Accounts (.closed :: rs) vs unread

/-- The values among some answers. -/
def valuesOf (rs : List (Received α)) : List α :=
  rs.filterMap fun
    | .value v => some v
    | _ => none

namespace Accounts

variable {rs rs' : List (Received α)} {vs mid unread : List α}

/-- An account can be taken up where another one left off. -/
theorem append (h : Accounts rs vs mid) (h' : Accounts rs' mid unread) :
    Accounts (rs ++ rs') vs unread := by
  induction h with
  | start => exact h'
  | value _ ih => exact .value (ih h')
  | lagged hm _ ih => exact .lagged hm (ih h')
  | empty _ ih => exact .empty (ih h')
  | closed _ ih => exact .closed (ih h')

/-- What is sent later is unread. -/
theorem grow (h : Accounts rs vs unread) (more : List α) :
    Accounts rs (vs ++ more) (unread ++ more) := by
  induction h with
  | start vs => exact .start _
  | value _ ih => exact .value ih
  | lagged hm _ ih =>
    rw [List.append_assoc]
    exact .lagged hm ih
  | empty _ ih => exact .empty ih
  | closed _ ih => exact .closed ih

/-- **Who missed nothing was told of every value**, once and in the order of sending. -/
theorem valuesOf_append (h : Accounts rs vs unread) (hl : ∀ n, .lagged n ∉ rs) :
    valuesOf rs ++ unread = vs := by
  induction h with
  | start => rfl
  | value _ ih =>
    have ih := ih fun n hn => hl n (List.mem_cons_of_mem _ hn)
    simpa [valuesOf] using ih
  | lagged => exact absurd List.mem_cons_self (hl _)
  | empty _ ih | closed _ ih =>
    have ih := ih fun n hn => hl n (List.mem_cons_of_mem _ hn)
    simpa [valuesOf] using ih

end Accounts

namespace Channel

/-! ## 2. How much a channel keeps -/

theorem le_roundUp (n : Nat) : n ≤ roundUp n := by
  unfold roundUp
  split
  · assumption
  · have := Nat.lt_log2_self (n := n - 1)
    rw [Nat.pow_eq]
    omega

/-- **A channel keeps the least power of two of values that is not below what was asked.** -/
theorem isLeast_roundUp (n : Nat) : IsLeast {m | m.isPowerOfTwo ∧ n ≤ m} (roundUp n) := by
  refine ⟨⟨?_, le_roundUp n⟩, ?_⟩
  · unfold roundUp
    split
    · exact ⟨0, rfl⟩
    · exact ⟨_, rfl⟩
  · rintro m ⟨⟨k, rfl⟩, hm⟩
    unfold roundUp
    split
    · exact Nat.one_le_two_pow
    · rename_i h
      have hlog : 2 ^ (n - 1).log2 ≤ n - 1 := Nat.log2_self_le (by omega)
      have hk : (n - 1).log2 < k := by
        refine (Nat.pow_lt_pow_iff_right (a := 2) (by omega)).mp ?_
        omega
      exact Nat.pow_le_pow_right (by omega) hk

/-! ## 3. The values sent to a channel -/

/-- These values were sent to a channel, in this order, since it was opened. -/
structure Carries (c : Channel α) (vs : List α) : Prop where
  kept_eq : c.kept = vs.drop (vs.length - c.capacity)
  sent_eq : c.sent = vs.length

theorem carries_ofCapacity (n : Nat) : (ofCapacity n : Channel α).Carries [] :=
  ⟨List.drop_nil.symm, rfl⟩

namespace Carries

variable {c : Channel α} {vs : List α} {next : Nat}

theorem send (h : c.Carries vs) (v : α) : (c.send v).Carries (vs ++ [v]) := by
  refine ⟨?_, by simp [Channel.send, h.sent_eq]⟩
  simp only [Channel.send, h.kept_eq, List.length_drop, List.length_append, List.length_singleton]
  rw [← List.drop_append_of_le_length (by omega), List.drop_drop]
  congr 1
  omega

theorem close (h : c.Carries vs) : c.close.Carries vs :=
  ⟨h.kept_eq, h.sent_eq⟩

theorem oldest_eq (h : c.Carries vs) : c.oldest = vs.length - c.capacity := by
  rw [oldest, h.kept_eq, h.sent_eq, List.length_drop]
  omega

/-- Who is within reach has to read what was sent since its place. -/
theorem unread_eq (h : c.Carries vs) (hn : vs.length - c.capacity ≤ next) :
    c.unread next = vs.drop next := by
  rw [unread, h.oldest_eq, h.kept_eq, List.drop_drop]
  congr 1
  omega

/-- Who fell behind is told by how much, and goes on with the oldest value kept. -/
theorem receive_of_behind (h : c.Carries vs) (hn : next < vs.length - c.capacity) :
    c.receive next
      = (.lagged (vs.length - c.capacity - next), vs.length - c.capacity) := by
  rw [receive, h.oldest_eq, if_pos hn]

/-- Who has read all is told that there is nothing. -/
theorem receive_of_done (h : c.Carries vs) (hn : vs.length ≤ next) :
    c.receive next = (c.nothing, next) := by
  rw [receive, h.oldest_eq, if_neg (by omega), h.unread_eq (by omega),
    List.drop_eq_nil_of_le hn]

/-- Who is within reach of a value is told it. -/
theorem receive_of_drop {v : α} {rest : List α} (h : c.Carries vs)
    (hn : vs.length - c.capacity ≤ next) (hv : vs.drop next = v :: rest) :
    c.receive next = (.value v, next + 1) :=
  receive_of_unread (by rwa [h.oldest_eq]) (by rwa [h.unread_eq hn])

theorem nothing_eq (c : Channel α) :
    c.nothing = (.empty : Received α) ∨ c.nothing = (.closed : Received α) := by
  unfold nothing
  split
  · exact .inl rfl
  · exact .inr rfl

/-- **One answer accounts for what lies between the places before and after it.** -/
theorem receive_accounts (h : c.Carries vs) (hn : next ≤ vs.length) :
    Accounts [(c.receive next).1] (vs.drop next) (vs.drop (c.receive next).2) ∧
      next ≤ (c.receive next).2 ∧ (c.receive next).2 ≤ vs.length := by
  by_cases hb : next < vs.length - c.capacity
  · obtain ⟨missed, hcut⟩ : vs.drop (vs.length - c.capacity) <:+ vs.drop next := by
      rw [← Nat.add_sub_cancel' hb.le, ← List.drop_drop]
      exact List.drop_suffix _ _
    have hlen : missed.length = vs.length - c.capacity - next := by
      have hlength := congrArg List.length hcut
      rw [List.length_append, List.length_drop, List.length_drop] at hlength
      omega
    rw [h.receive_of_behind hb, ← hlen, ← hcut]
    refine ⟨.lagged ?_ (.start _), hb.le, Nat.sub_le _ _⟩
    rintro rfl
    rw [List.length_nil] at hlen
    omega
  · cases hv : vs.drop next with
    | nil =>
      have hd : vs.length ≤ next := List.drop_eq_nil_iff.mp hv
      rw [h.receive_of_done hd]
      refine ⟨?_, Nat.le_refl _, hn⟩
      rw [hv]
      rcases nothing_eq c with he | he <;> rw [he]
      · exact .empty (.start [])
      · exact .closed (.start [])
    | cons v rest =>
      have hlt : next < vs.length := by
        by_contra hge
        rw [List.drop_eq_nil_of_le (by omega)] at hv
        cases hv
      rw [h.receive_of_drop (by omega) hv]
      refine ⟨?_, Nat.le_succ _, hlt⟩
      rw [← List.tail_drop, hv]
      exact .value (.start rest)

/-- **Who is no further behind than the channel keeps is not told of anything missed.** -/
theorem receive_ne_lagged (h : c.Carries vs) (hn : vs.length - next ≤ c.capacity) (n : Nat) :
    (c.receive next).1 ≠ .lagged n := by
  rw [receive, h.oldest_eq, if_neg (by omega)]
  split
  · rcases nothing_eq c with he | he <;> simp [he]
  · simp

end Carries

end Channel

end DeviceScript
