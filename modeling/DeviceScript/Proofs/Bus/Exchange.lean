import DeviceScript.Bus.Basic
import DeviceScript.Proofs.Bus.Channel
/-!
# What a subscription is told

Subscriptions come and go while events are fired on a bus, each asks when it likes, and the bus may
be gone before they have read everything.  This module follows all of this from one act to the next
(`Exchange.act`) and says what one subscription is told over any number of acts: its answers account
for the events fired on its topic since it was made, and for no others
(`Exchange.told_of_subscription`).

What carries it is that the channel of a topic is a function of the events fired on it
(`Bus.Streams`): one equation for each act on a bus says which channels it changes
(`channel?_withTopic`, `channel?_fire`, `channel?_close`), and a subscription is a place in the stream
of its channel (`Reader.Follows`).  What other subscriptions do changes neither.
-/

namespace DeviceScript

/-! ## 1. A bus and its subscriptions -/

/-- What is done with a bus and its subscriptions, which are numbered in the order in which they were
made. -/
inductive Bus.Act where
  /-- Someone subscribes to a topic, or to all of them. -/
  | subscribe (topic : Option String)
  | fire (e : Event Json)
  /-- A subscription asks for what comes next. -/
  | receive (reader : Nat)
  | unsubscribe (reader : Nat)
  /-- The bus itself goes away. -/
  | drop

/-- A subscription, none when it was given up, and all that it was told. -/
structure Reader where
  place : Option Subscription
  told : List (Received (Event Json))

/-- A bus, and all subscriptions that were ever made. -/
structure Exchange where
  bus : Bus
  readers : List Reader

/-- The bus after a subscription to a topic, or to all, and that subscription. -/
def Bus.join (b : Bus) : Option String → Bus × Subscription
  | none => b.subscribeAll
  | some topic => b.subscribe topic

/-- The bus after one act.  Nobody can subscribe to a bus that is gone, or fire on it. -/
def Bus.act (b : Bus) : Bus.Act → Bus
  | .subscribe topic => if b.isOpen then (b.join topic).1 else b
  | .fire e => if b.isOpen then b.fire e else b
  | .receive _ | .unsubscribe _ => b
  | .drop => b.close

/-- The reader after it asked for what comes next. -/
def Reader.ask (b : Bus) (r : Reader) : Reader :=
  match r.place with
  | none => r
  | some s => ⟨some (b.receive s).2, r.told ++ [(b.receive s).1]⟩

/-- The reader after it gave up its subscription. -/
def Reader.leave (r : Reader) : Reader :=
  { r with place := none }

namespace Exchange

/-- A bus that nobody has subscribed to. -/
def ofBus (bus : Bus) : Exchange :=
  ⟨bus, []⟩

/-- The subscriptions after one act. -/
def readersAfter (x : Exchange) : Bus.Act → List Reader
  | .subscribe topic =>
    if x.bus.isOpen then x.readers ++ [⟨some (x.bus.join topic).2, []⟩] else x.readers
  | .receive i => x.readers.modify i (·.ask x.bus)
  | .unsubscribe i => x.readers.modify i Reader.leave
  | .fire _ | .drop => x.readers

/-- The exchange after one act. -/
def act (x : Exchange) (a : Bus.Act) : Exchange :=
  ⟨x.bus.act a, x.readersAfter a⟩

/-- The exchange after several acts. -/
def after (x : Exchange) (acts : List Bus.Act) : Exchange :=
  acts.foldl act x

/-- How many events a subscription has still to read or to hear that it missed. -/
def behind (x : Exchange) (i : Nat) : Nat :=
  match x.readers[i]?.bind (·.place) with
  | none => 0
  | some s => ((x.bus.channel? s.topic).map (·.sent - s.next)).getD 0

end Exchange

/-- Whether an event is one for a subscription to this topic, or to all. -/
def IsOn (topic : Option String) (e : Event Json) : Prop :=
  ∀ t ∈ topic, e.topic = t

instance (topic : Option String) (e : Event Json) : Decidable (IsOn topic e) :=
  inferInstanceAs (Decidable (∀ t ∈ topic, e.topic = t))

/-- The events for a topic, or for all, that are fired before the bus goes away. -/
def firedOn (topic : Option String) : List Bus.Act → List (Event Json)
  | [] => []
  | .drop :: _ => []
  | .fire e :: acts => if IsOn topic e then e :: firedOn topic acts else firedOn topic acts
  | _ :: acts => firedOn topic acts

/-- What is said to someone who asks until nothing is left: how many events were missed, if they are
more than the channel keeps, the events kept, and that there are no more. -/
def answersFor (capacity : Nat) (isOpen : Bool) (unread : List (Event Json)) :
    List (Received (Event Json)) :=
  (if capacity < unread.length then [.lagged (unread.length - capacity)] else [])
    ++ (unread.drop (unread.length - capacity)).map .value
    ++ [if isOpen then .empty else .closed]

/-! ## 2. The channels of a bus -/

theorem Table.find?_map {α : Type} (t : Table α) (f : α → α) (name : String) :
    Table.find? (t.map fun e => (e.1, f e.2)) name = (t.find? name).map f := by
  induction t with
  | nil => rfl
  | cons e r ih =>
    obtain ⟨n, v⟩ := e
    by_cases h : name = n
    · simp [Table.find?, h]
    · simpa [Table.find?, h] using ih

namespace Bus

variable {b b' : Bus} {topic : Option String} {es : List (Event Json)}

theorem channel?_withTopic (b : Bus) (t : String) (topic : Option String) :
    (b.withTopic t).channel? topic
      = if topic = some t then some ((b.channel? topic).getD (.ofCapacity b.capacity))
        else b.channel? topic := by
  unfold withTopic
  split
  · rename_i h
    obtain ⟨c, hc⟩ := Option.isSome_iff_exists.mp h
    split
    · rename_i ht
      simp [ht, channel?, hc]
    · rfl
  · rename_i h
    have hc : b.topics.find? t = none := Option.not_isSome_iff_eq_none.mp h
    cases topic with
    | none => simp [channel?]
    | some u =>
      by_cases hu : u = t
      · simp [channel?, Table.find?_insert, hu, hc]
      · simp [channel?, Table.find?_insert, hu]

theorem channel?_fire (b : Bus) (e : Event Json) (topic : Option String) :
    (b.fire e).channel? topic
      = (b.channel? topic).map fun c => if IsOn topic e then c.send e else c := by
  cases topic with
  | none => simp [channel?, fire, IsOn]
  | some u =>
    rw [channel?, fire, Table.find?_update]
    by_cases hu : e.topic = u
    · simp [channel?, IsOn, hu]
    · simp [channel?, IsOn, hu, Ne.symm hu]

theorem channel?_close (b : Bus) (topic : Option String) :
    b.close.channel? topic = (b.channel? topic).map Channel.close := by
  cases topic with
  | none => rfl
  | some u => exact Table.find?_map b.topics Channel.close u

/-- The channel that a subscription to a topic, or to all, reads carries these events. -/
def Streams (b : Bus) (topic : Option String) (es : List (Event Json)) : Prop :=
  ∃ c, b.channel? topic = some c ∧ c.Carries es ∧
    c.capacity = Channel.roundUp b.capacity ∧ c.isOpen = b.isOpen

/-- Every channel of a bus carries what was fired on it. -/
def IsSound (b : Bus) : Prop :=
  ∀ topic c, b.channel? topic = some c → ∃ es, b.Streams topic es

theorem isSound_of_create? {capacity : Nat} (h : create? capacity = .ok b) :
    b.IsSound ∧ b.capacity = capacity ∧ b.isOpen = true := by
  unfold create? at h
  split at h
  · cases h
  · cases h
    refine ⟨?_, rfl, rfl⟩
    rintro (_ | u) c hc
    · exact ⟨[], _, rfl, Channel.carries_ofCapacity _, rfl, rfl⟩
    · cases hc

theorem Streams.fire (h : b.Streams topic es) (e : Event Json) :
    (b.fire e).Streams topic (es ++ if IsOn topic e then [e] else []) := by
  obtain ⟨c, hc, hes, hcap, hop⟩ := h
  refine ⟨_, by rw [channel?_fire, hc]; rfl, ?_⟩
  split
  · exact ⟨hes.send e, hcap, hop⟩
  · exact ⟨by rwa [List.append_nil], hcap, hop⟩

theorem Streams.close (h : b.Streams topic es) : b.close.Streams topic es := by
  obtain ⟨c, hc, hes, hcap, -⟩ := h
  exact ⟨c.close, by rw [channel?_close, hc]; rfl, hes.close, hcap, rfl⟩

theorem capacity_withTopic (b : Bus) (t : String) : (b.withTopic t).capacity = b.capacity := by
  unfold withTopic
  split <;> rfl

theorem isOpen_withTopic (b : Bus) (t : String) : (b.withTopic t).isOpen = b.isOpen := by
  unfold withTopic
  split <;> rfl

theorem Streams.withTopic (h : b.Streams topic es) (t : String) :
    (b.withTopic t).Streams topic es := by
  obtain ⟨c, hc, hes, hcap, hop⟩ := h
  refine ⟨c, ?_, hes, ?_, ?_⟩
  · rw [channel?_withTopic, hc]
    split <;> rfl
  · rw [capacity_withTopic, hcap]
  · rw [isOpen_withTopic, hop]

theorem capacity_join (b : Bus) (topic : Option String) :
    (b.join topic).1.capacity = b.capacity := by
  cases topic with
  | none => rfl
  | some t => exact capacity_withTopic b t

theorem isOpen_join (b : Bus) (topic : Option String) : (b.join topic).1.isOpen = b.isOpen := by
  cases topic with
  | none => rfl
  | some t => exact isOpen_withTopic b t

theorem Streams.join (h : b.Streams topic es) (t : Option String) :
    (b.join t).1.Streams topic es := by
  cases t with
  | none => exact h
  | some t => exact h.withTopic t

theorem IsSound.fire (h : b.IsSound) (e : Event Json) : (b.fire e).IsSound := by
  intro topic c hc
  rw [channel?_fire, Option.map_eq_some_iff] at hc
  obtain ⟨c, hc, -⟩ := hc
  obtain ⟨es, hes⟩ := h topic c hc
  exact ⟨_, hes.fire e⟩

theorem IsSound.close (h : b.IsSound) : b.close.IsSound := by
  intro topic c hc
  rw [channel?_close, Option.map_eq_some_iff] at hc
  obtain ⟨c, hc, -⟩ := hc
  obtain ⟨es, hes⟩ := h topic c hc
  exact ⟨es, hes.close⟩

theorem IsSound.join (h : b.IsSound) (ho : b.isOpen = true) (t : Option String) :
    (b.join t).1.IsSound := by
  cases t with
  | none => exact h
  | some t =>
    intro topic c hc
    change (b.withTopic t).channel? topic = some c at hc
    change ∃ es, (b.withTopic t).Streams topic es
    cases hd : b.channel? topic with
    | some d =>
      obtain ⟨es, hes⟩ := h topic d hd
      exact ⟨es, hes.withTopic t⟩
    | none =>
      -- only the topic subscribed to has a channel now, and a new one
      have hc' := hc
      rw [channel?_withTopic, hd, Option.getD_none] at hc'
      split at hc'
      · obtain rfl := Option.some.inj hc'
        refine ⟨[], _, hc, Channel.carries_ofCapacity _, ?_, ?_⟩
        · rw [capacity_withTopic]
          rfl
        · rw [isOpen_withTopic, ho]
          rfl
      · cases hc'

/-- **A subscription begins where the stream of its channel ends.** -/
theorem IsSound.streams_join (h : b.IsSound) (ho : b.isOpen = true) (topic : Option String) :
    ∃ es, (b.join topic).1.Streams topic es ∧ (b.join topic).2 = ⟨topic, es.length⟩ := by
  have hs := h.join ho topic
  cases topic with
  | none =>
    obtain ⟨es, c, hc, hes, hcap, hop⟩ := hs none _ rfl
    refine ⟨es, ⟨c, hc, hes, hcap, hop⟩, ?_⟩
    obtain rfl := Option.some.inj hc
    exact congrArg (Subscription.mk none) hes.sent_eq
  | some t =>
    have hf : (b.withTopic t).channel? (some t)
        = some ((b.channel? (some t)).getD (.ofCapacity b.capacity)) := by
      rw [channel?_withTopic, if_pos rfl]
    obtain ⟨es, c, hc, hes, hcap, hop⟩ := hs (some t) _ hf
    refine ⟨es, ⟨c, hc, hes, hcap, hop⟩, ?_⟩
    have hnext : (((b.withTopic t).topics.find? t).map (·.sent)).getD 0 = es.length := by
      change ((b.withTopic t).topics.find? t) = some c at hc
      rw [hc, Option.map_some, Option.getD_some, hes.sent_eq]
    exact congrArg (Subscription.mk (some t)) hnext

/-- What someone is told who reads a channel at some place. -/
theorem receive_of_channel? {c : Channel (Event Json)} {next : Nat}
    (hc : b.channel? topic = some c) :
    b.receive ⟨topic, next⟩ = ((c.receive next).1, ⟨topic, (c.receive next).2⟩) := by
  simp only [receive, hc]

/-! ## 3. Reading until nothing is left -/

/-- Who is within reach reads all that was sent since, and hears that there is no more. -/
theorem drainFrom_of_reach {c : Channel (Event Json)} (hc : b.channel? topic = some c)
    (hes : c.Carries es) {n next : Nat} (hr : es.length - c.capacity ≤ next)
    (hn : es.length - next < n) :
    (drainFrom b.receive n ⟨topic, next⟩).1
      = (es.drop next).map .value ++ [if c.isOpen then .empty else .closed] := by
  induction n generalizing next with
  | zero => omega
  | succ n ih =>
    rw [drainFrom, receive_of_channel? hc]
    cases hv : es.drop next with
    | nil =>
      rw [hes.receive_of_done (List.drop_eq_nil_iff.mp hv), Channel.nothing]
      cases c.isOpen <;> rfl
    | cons e rest =>
      rw [hes.receive_of_drop hr hv]
      have hlt : next < es.length := by
        by_contra hge
        rw [List.drop_eq_nil_of_le (by omega)] at hv
        cases hv
      have hrest : es.drop (next + 1) = rest := by
        rw [← List.tail_drop, hv]
        rfl
      have hmore := @ih (next + 1) (by omega) (by omega)
      rw [hrest] at hmore
      simp only [hmore, List.map_cons, List.cons_append]

/-- **All that a reader is told who asks until nothing is left** is a function of what it has still to
read. -/
theorem drain_eq {next : Nat} (h : b.Streams topic es) (hn : next ≤ es.length) :
    (b.drain ⟨topic, next⟩).1
      = answersFor (Channel.roundUp b.capacity) b.isOpen (es.drop next) := by
  obtain ⟨c, hc, hes, hcap, hop⟩ := h
  have hbound : b.drainBound ⟨topic, next⟩ = c.kept.length + 1 + 1 := by
    simp only [drainBound, hc, Option.map_some, Option.getD_some]
  have hkept : c.kept.length = es.length - (es.length - c.capacity) := by
    rw [hes.kept_eq, List.length_drop]
  rw [drain, hbound, answersFor, ← hcap, ← hop, List.length_drop, List.drop_drop]
  by_cases hb : next < es.length - c.capacity
  · have hgap : es.length - next - c.capacity = es.length - c.capacity - next := by omega
    have hrest := drainFrom_of_reach hc hes (n := c.kept.length + 1) (Nat.le_refl _) (by omega)
    rw [drainFrom, receive_of_channel? hc, hes.receive_of_behind hb, if_pos (by omega), hgap,
      Nat.add_sub_cancel' hb.le]
    simp only [hrest, List.cons_append, List.nil_append]
  · have hgap : es.length - next - c.capacity = 0 := by omega
    have hall := drainFrom_of_reach hc hes (n := c.kept.length + 1 + 1) (by omega : _ ≤ next)
      (by omega)
    have hnear : ¬ c.capacity < es.length - next := by omega
    rw [hall, if_neg hnear, hgap, Nat.add_zero, List.nil_append]

end Bus

/-! ## 4. One reader -/

namespace Reader

variable {r : Reader} {b b' : Bus} {topic : Option String} {due more : List (Event Json)}

/-- **What a reader was told accounts for the events due to it**, and its place is where the account
ends. -/
def Follows (b : Bus) (topic : Option String) (due : List (Event Json)) (r : Reader) : Prop :=
  ∃ earlier next, b.Streams topic (earlier ++ due) ∧ next ≤ (earlier ++ due).length ∧
    Accounts r.told due ((earlier ++ due).drop next) ∧ ∀ s, r.place = some s → s = ⟨topic, next⟩

/-- What is fired on its topic is due to it. -/
theorem Follows.grow (h : r.Follows b topic due)
    (hb : ∀ es, b.Streams topic es → b'.Streams topic (es ++ more)) :
    r.Follows b' topic (due ++ more) := by
  obtain ⟨earlier, next, hs, hn, ha, hp⟩ := h
  refine ⟨earlier, next, ?_, ?_, ?_, hp⟩
  · rw [← List.append_assoc]
    exact hb _ hs
  · rw [← List.append_assoc, List.length_append]
    omega
  · rw [← List.append_assoc, List.drop_append_of_le_length hn]
    exact ha.grow more

/-- An answer carries the account on. -/
theorem Follows.ask (h : r.Follows b topic due) : (r.ask b).Follows b topic due := by
  obtain ⟨earlier, next, hs, hn, ha, hp⟩ := h
  cases hr : r.place with
  | none =>
    have hsame : r.ask b = r := by
      rw [Reader.ask, hr]
    rw [hsame]
    exact ⟨earlier, next, hs, hn, ha, hp⟩
  | some s =>
    obtain ⟨c, hc, hes, hcap, hop⟩ := hs
    obtain rfl := hp s hr
    have hstep := hes.receive_accounts hn
    have hask : r.ask b
        = ⟨some ⟨topic, (c.receive next).2⟩, r.told ++ [(c.receive next).1]⟩ := by
      rw [Reader.ask, hr]
      simp only [Bus.receive_of_channel? hc]
    rw [hask]
    exact ⟨earlier, (c.receive next).2, ⟨c, hc, hes, hcap, hop⟩, hstep.2.2,
      ha.append hstep.1, fun s hs' => (Option.some.inj hs').symm⟩

theorem Follows.leave (h : r.Follows b topic due) : r.leave.Follows b topic due := by
  obtain ⟨earlier, next, hs, hn, ha, -⟩ := h
  exact ⟨earlier, next, hs, hn, ha, fun s hs' => by cases hs'⟩

/-- What is still to be read says all that a reader will be told, also when the bus is gone. -/
theorem Follows.exists_unread (h : r.Follows b topic due) :
    ∃ unread, Accounts r.told due unread ∧ ∀ s, r.place = some s →
      ((b.channel? s.topic).map (·.sent - s.next)).getD 0 = unread.length ∧
      (b.drain s).1 = answersFor (Channel.roundUp b.capacity) b.isOpen unread ∧
      (b.close.drain s).1 = answersFor (Channel.roundUp b.capacity) false unread := by
  obtain ⟨earlier, next, hs, hn, ha, hp⟩ := h
  refine ⟨_, ha, fun s hs' => ?_⟩
  obtain rfl := hp s hs'
  refine ⟨?_, Bus.drain_eq hs hn, Bus.drain_eq hs.close hn⟩
  obtain ⟨c, hc, hes, -⟩ := hs
  rw [hc, Option.map_some, Option.getD_some, hes.sent_eq, List.length_drop]

/-- A reader that has no more to read than the channel keeps is not told of anything missed. -/
theorem Follows.lagged_notMem_ask (h : r.Follows b topic due) (hl : ∀ n, .lagged n ∉ r.told)
    (hb : ∀ s, r.place = some s →
      ((b.channel? s.topic).map (·.sent - s.next)).getD 0 ≤ Channel.roundUp b.capacity) (n : Nat) :
    .lagged n ∉ (r.ask b).told := by
  rw [Reader.ask]
  split
  · exact hl n
  · rename_i s hs'
    obtain ⟨earlier, next, ⟨c, hc, hes, hcap, -⟩, -, -, hp⟩ := h
    obtain rfl := hp s hs'
    have hnear := hb _ hs'
    rw [hc, Option.map_some, Option.getD_some, hes.sent_eq, ← hcap] at hnear
    rw [Bus.receive_of_channel? hc]
    intro hm
    rcases List.mem_append.mp hm with hm | hm
    · exact hl n hm
    · exact hes.receive_ne_lagged hnear n (List.mem_singleton.mp hm).symm

end Reader

/-! ## 5. All acts -/

namespace Bus

variable {b : Bus} {topic : Option String} {es : List (Event Json)}

/-- The events for a topic, or for all, that one act fires. -/
def firedBy (b : Bus) (topic : Option String) (a : Act) : List (Event Json) :=
  if b.isOpen then firedOn topic [a] else []

theorem capacity_act (b : Bus) (a : Act) : (b.act a).capacity = b.capacity := by
  cases a with
  | subscribe t =>
    simp only [act]
    split
    · exact b.capacity_join t
    · rfl
  | fire e =>
    simp only [act]
    split <;> rfl
  | receive j | unsubscribe j | drop => rfl

/-- Only the end of the bus closes it. -/
theorem isOpen_act {a : Act} (ha : a ≠ .drop) : (b.act a).isOpen = b.isOpen := by
  cases a with
  | subscribe t =>
    simp only [act]
    split
    · exact b.isOpen_join t
    · rfl
  | fire e =>
    simp only [act]
    split <;> rfl
  | receive j | unsubscribe j => rfl
  | drop => exact absurd rfl ha

theorem IsSound.act (h : b.IsSound) (a : Act) : (b.act a).IsSound := by
  cases a with
  | subscribe t =>
    simp only [Bus.act]
    split
    · rename_i ho
      exact h.join ho t
    · exact h
  | fire e =>
    simp only [Bus.act]
    split
    · exact h.fire e
    · exact h
  | receive j | unsubscribe j => exact h
  | drop => exact h.close

/-- **What an act fires on a topic is added to its stream**, and nothing else is. -/
theorem Streams.act (h : b.Streams topic es) (a : Act) :
    (b.act a).Streams topic (es ++ b.firedBy topic a) := by
  have hsame : b.Streams topic (es ++ []) := by rwa [List.append_nil]
  unfold firedBy
  cases ho : b.isOpen with
  | false =>
    rw [if_neg Bool.false_ne_true]
    cases a with
    | subscribe t | fire e =>
      simp only [Bus.act, ho, Bool.false_eq_true, ite_false]
      exact hsame
    | receive j | unsubscribe j => exact hsame
    | drop => exact hsame.close
  | true =>
    rw [if_pos rfl]
    cases a with
    | subscribe t =>
      simp only [Bus.act, ho, ite_true]
      exact hsame.join t
    | fire e =>
      simp only [Bus.act, ho, ite_true]
      exact h.fire e
    | receive j | unsubscribe j => exact hsame
    | drop => exact hsame.close

end Bus

namespace Exchange

variable {x : Exchange} {i : Nat} {topic : Option String} {due : List (Event Json)}

theorem capacity_after (x : Exchange) (acts : List Bus.Act) :
    (x.after acts).bus.capacity = x.bus.capacity := by
  induction acts generalizing x with
  | nil => rfl
  | cons a acts ih => exact (ih (x.act a)).trans (x.bus.capacity_act a)

theorem isSound_after (h : x.bus.IsSound) (acts : List Bus.Act) :
    (x.after acts).bus.IsSound := by
  induction acts generalizing x with
  | nil => exact h
  | cons a acts ih => exact ih (h.act a)

theorem isOpen_after {acts : List Bus.Act} (hd : .drop ∉ acts) :
    (x.after acts).bus.isOpen = x.bus.isOpen := by
  induction acts generalizing x with
  | nil => rfl
  | cons a acts ih =>
    refine (ih fun hm => hd (List.mem_cons_of_mem _ hm)).trans (Bus.isOpen_act ?_)
    rintro rfl
    exact hd List.mem_cons_self

theorem getElem?_modify_of_some {l : List Reader} {r : Reader} (hr : l[i]? = some r) {j : Nat}
    {f : Reader → Reader} : (l.modify j f)[i]? = some (if j = i then f r else r) := by
  rw [List.getElem?_modify, hr, Option.map_eq_map, Option.map_some]

/-- What one act does to one reader. -/
theorem readers_act {r : Reader} (hr : x.readers[i]? = some r) (a : Bus.Act) :
    ∃ r', (x.act a).readers[i]? = some r' ∧
      (r' = r ∨ r' = r.ask x.bus ∨ a = .unsubscribe i ∧ r' = r.leave) := by
  have hsame : ∃ r', x.readers[i]? = some r' ∧
      (r' = r ∨ r' = r.ask x.bus ∨ a = .unsubscribe i ∧ r' = r.leave) := ⟨r, hr, .inl rfl⟩
  cases a with
  | subscribe t =>
    obtain ⟨hlt, -⟩ := List.getElem?_eq_some_iff.mp hr
    simp only [act, readersAfter]
    split
    · rw [List.getElem?_append_left hlt]
      exact hsame
    · exact hsame
  | fire e | drop => exact hsame
  | receive j =>
    refine ⟨_, getElem?_modify_of_some hr, ?_⟩
    split
    · exact .inr (.inl rfl)
    · exact .inl rfl
  | unsubscribe j =>
    refine ⟨_, getElem?_modify_of_some hr, ?_⟩
    split
    · rename_i hj
      exact .inr (.inr ⟨by rw [hj], rfl⟩)
    · exact .inl rfl

/-- There is such a reader, and what it was told accounts for the events due to it. -/
def Follows (x : Exchange) (i : Nat) (topic : Option String) (due : List (Event Json)) : Prop :=
  ∃ r, x.readers[i]? = some r ∧ r.Follows x.bus topic due

/-- **Any act leaves a reader with an account of the events due to it**, those of the act included. -/
theorem Follows.act (h : x.Follows i topic due) (a : Bus.Act) :
    (x.act a).Follows i topic (due ++ x.bus.firedBy topic a) := by
  obtain ⟨r, hr, hf⟩ := h
  obtain ⟨r', hr', hcases⟩ := readers_act hr a
  refine ⟨r', hr', ?_⟩
  rcases hcases with rfl | rfl | ⟨-, rfl⟩
  · exact hf.grow fun es hs => hs.act a
  · exact hf.ask.grow fun es hs => hs.act a
  · exact hf.leave.grow fun es hs => hs.act a

/-- What is fired after an act, and what the act fires, is all that is fired. -/
theorem firedBy_append (b : Bus) (topic : Option String) (a : Bus.Act) (acts : List Bus.Act) :
    b.firedBy topic a ++ (if (b.act a).isOpen then firedOn topic acts else [])
      = if b.isOpen then firedOn topic (a :: acts) else [] := by
  cases a with
  | drop =>
    unfold Bus.firedBy
    split <;> rfl
  | fire e =>
    rw [Bus.isOpen_act (by rintro ⟨⟩), Bus.firedBy]
    split
    · simp only [firedOn]
      split <;> rfl
    · rfl
  | subscribe t | receive j | unsubscribe j =>
    rw [Bus.isOpen_act (by rintro ⟨⟩), Bus.firedBy]
    split <;> rfl

/-- **Over any number of acts a reader keeps an account of the events due to it.** -/
theorem Follows.after (h : x.Follows i topic due) (acts : List Bus.Act) :
    (x.after acts).Follows i topic (due ++ if x.bus.isOpen then firedOn topic acts else []) := by
  induction acts generalizing x due with
  | nil =>
    simp only [firedOn, ite_self, List.append_nil]
    exact h
  | cons a acts ih =>
    have hrest := ih (h.act a)
    rwa [List.append_assoc, show (x.act a).bus = x.bus.act a from rfl, firedBy_append] at hrest

theorem readers_subscribe (ho : x.bus.isOpen = true) (topic : Option String) :
    (x.act (.subscribe topic)).readers[x.readers.length]?
      = some ⟨some (x.bus.join topic).2, []⟩ := by
  simp only [act, readersAfter, ho, ite_true, List.getElem?_concat_length]

/-- A new subscription has nothing to account for. -/
theorem follows_subscribe (hs : x.bus.IsSound) (ho : x.bus.isOpen = true)
    (topic : Option String) : (x.act (.subscribe topic)).Follows x.readers.length topic [] := by
  obtain ⟨es, hes, hplace⟩ := hs.streams_join ho topic
  refine ⟨_, readers_subscribe ho topic, es, es.length, ?_, ?_, ?_, ?_⟩
  · simpa only [act, Bus.act, ho, ite_true, List.append_nil] using hes
  · rw [List.append_nil]
  · rw [List.append_nil, List.drop_length]
    exact .start []
  · intro s hs'
    rw [← Option.some.inj hs', hplace]

/-! ## 6. Who keeps up -/

/-- A reader that keeps its subscription has one after every act. -/
theorem place_after {r : Reader} (hr : x.readers[i]? = some r) (hp : r.place.isSome = true)
    {acts : List Bus.Act} (hu : .unsubscribe i ∉ acts) :
    ∃ r', (x.after acts).readers[i]? = some r' ∧ r'.place.isSome = true := by
  induction acts generalizing x r with
  | nil => exact ⟨r, hr, hp⟩
  | cons a acts ih =>
    obtain ⟨r', hr', hcases⟩ := readers_act hr a
    refine ih hr' ?_ fun hm => hu (List.mem_cons_of_mem _ hm)
    rcases hcases with rfl | rfl | ⟨rfl, -⟩
    · exact hp
    · rw [Reader.ask]
      split
      · exact hp
      · rfl
    · exact absurd List.mem_cons_self hu

theorem behind_eq {r : Reader} {s : Subscription} (hr : x.readers[i]? = some r)
    (hp : r.place = some s) :
    x.behind i = ((x.bus.channel? s.topic).map (·.sent - s.next)).getD 0 := by
  simp only [behind, hr, Option.bind_some, hp]

/-- **A reader that keeps up with the bus is never told that it missed anything.** -/
theorem Follows.lagged_notMem (h : x.Follows i topic due) {acts : List Bus.Act}
    (hl : ∀ r, x.readers[i]? = some r → ∀ n, .lagged n ∉ r.told)
    (hb : ∀ p, p <+: acts → (x.after p).behind i ≤ x.bus.capacity) {r : Reader}
    (hr : (x.after acts).readers[i]? = some r) (n : Nat) : .lagged n ∉ r.told := by
  induction acts generalizing x due with
  | nil => exact hl r hr n
  | cons a acts ih =>
    refine ih (h.act a) (fun r' hr' n => ?_) (fun p hp => ?_) hr
    · obtain ⟨r₀, hr₀, hf⟩ := h
      obtain ⟨r₁, hr₁, hcases⟩ := readers_act hr₀ a
      obtain rfl : r₁ = r' := Option.some.inj (hr₁.symm.trans hr')
      rcases hcases with rfl | rfl | ⟨-, rfl⟩
      · exact hl _ hr₀ n
      · refine hf.lagged_notMem_ask (hl _ hr₀) (fun s hs => ?_) n
        rw [← behind_eq hr₀ hs]
        exact (hb [] (List.nil_prefix)).trans (Channel.le_roundUp _)
      · exact hl _ hr₀ n
    · have hcap : (x.act a).bus.capacity = x.bus.capacity := x.bus.capacity_act a
      rw [hcap]
      exact hb (a :: p) ((List.prefix_cons_inj a).mpr hp)

/-- **The account of a new subscription**, from which it follows what it will be told if it asks until
nothing is left. -/
theorem account_of_subscription {capacity : Nat} {bus : Bus} (hb : Bus.create? capacity = .ok bus)
    {before : List Bus.Act} (hd : .drop ∉ before) (topic : Option String) (later : List Bus.Act) :
    let x := (ofBus bus).after before
    let i := x.readers.length
    let y := x.after (.subscribe topic :: later)
    let kept := Channel.roundUp capacity
    ∃ r unread, y.readers[i]? = some r ∧ Accounts r.told (firedOn topic later) unread ∧
      (.unsubscribe i ∉ later → ∃ s, r.place = some s ∧ y.behind i = unread.length ∧
        (y.bus.drain s).1 = answersFor kept y.bus.isOpen unread ∧
        (y.bus.close.drain s).1 = answersFor kept false unread) ∧
      ((∀ p, p <+: later → (x.after (.subscribe topic :: p)).behind i ≤ capacity) →
        ∀ n, .lagged n ∉ r.told) := by
  intro x i y kept
  obtain ⟨hsound, hcap, hopen⟩ := Bus.isSound_of_create? hb
  have hxs : x.bus.IsSound := isSound_after hsound before
  have hxo : x.bus.isOpen = true := (isOpen_after hd).trans hopen
  have hxo' : (x.act (.subscribe topic)).bus.isOpen = true :=
    (Bus.isOpen_act (by rintro ⟨⟩)).trans hxo
  have hxc : (x.act (.subscribe topic)).bus.capacity = capacity :=
    (x.bus.capacity_act _).trans ((capacity_after _ before).trans hcap)
  have hyc : ((x.act (.subscribe topic)).after later).bus.capacity = capacity :=
    (capacity_after _ later).trans hxc
  have hnew := follows_subscribe hxs hxo topic
  have hafter := hnew.after later
  rw [if_pos hxo', List.nil_append] at hafter
  obtain ⟨r, hr, hf⟩ := hafter
  obtain ⟨unread, haccounts, hplace⟩ := hf.exists_unread
  refine ⟨r, unread, hr, haccounts, fun hu => ?_, fun hk => ?_⟩
  · obtain ⟨r', hr', hkept⟩ := place_after (readers_subscribe hxo topic) rfl hu
    obtain rfl : r' = r := Option.some.inj (hr'.symm.trans hr)
    obtain ⟨s, hs⟩ := Option.isSome_iff_exists.mp hkept
    obtain ⟨hbehind, hdrain, hclose⟩ := hplace s hs
    rw [hyc] at hdrain hclose
    exact ⟨s, hs, (behind_eq hr hs).trans hbehind, hdrain, hclose⟩
  · refine hnew.lagged_notMem (fun r₀ hr₀ n => ?_) (fun p hp => ?_) hr
    · rw [readers_subscribe hxo topic] at hr₀
      obtain rfl := Option.some.inj hr₀
      exact List.not_mem_nil
    · rw [hxc]
      exact hk p hp

/-- Nothing is missed that the channel keeps. -/
theorem valuesOf_answersFor {capacity : Nat} {isOpen : Bool} {unread : List (Event Json)}
    (h : ∀ n, .lagged n ∉ answersFor capacity isOpen unread) :
    valuesOf (answersFor capacity isOpen unread) = unread := by
  have hnear : ¬ capacity < unread.length := by
    intro hlt
    refine h (unread.length - capacity) ?_
    rw [answersFor, if_pos hlt, List.append_assoc]
    exact List.mem_append_left _ (List.mem_singleton_self _)
  have hgap : unread.length - capacity = 0 := by omega
  rw [answersFor, if_neg hnear, hgap, List.drop_zero, List.nil_append, valuesOf,
    List.filterMap_append, List.filterMap_map]
  have hvalues : unread.filterMap some = unread := List.filterMap_some
  refine (congrArg (· ++ _) hvalues).trans ?_
  cases isOpen <;> exact List.append_nil unread

/-- **A subscription that misses nothing is told of every event** fired on its topic since it was
made, once and in the order of firing, when it asks until nothing is left; and it misses nothing if it
is never further behind than the capacity of the bus. -/
theorem values_of_subscription {capacity : Nat} {bus : Bus} (hb : Bus.create? capacity = .ok bus)
    {before : List Bus.Act} (hd : .drop ∉ before) (topic : Option String) {later : List Bus.Act} :
    let x := (ofBus bus).after before
    let i := x.readers.length
    let y := x.after (.subscribe topic :: later)
    .unsubscribe i ∉ later → ∃ r s, y.readers[i]? = some r ∧ r.place = some s ∧
      ((∀ p, p <+: later → (x.after (.subscribe topic :: p)).behind i ≤ capacity) →
        ∀ n, .lagged n ∉ r.told ++ (y.bus.drain s).1) ∧
      ((∀ n, .lagged n ∉ r.told ++ (y.bus.drain s).1) →
        valuesOf (r.told ++ (y.bus.drain s).1) = firedOn topic later) := by
  intro x i y hu
  obtain ⟨r, unread, hr, haccounts, hplace, hkeeps⟩ := account_of_subscription hb hd topic later
  obtain ⟨s, hs, hbehind, hdrain, -⟩ := hplace hu
  refine ⟨r, s, hr, hs, fun hk n hmem => ?_, fun hl => ?_⟩
  · rcases List.mem_append.mp hmem with hmem | hmem
    · exact hkeeps hk n hmem
    · have hnear : ¬ Channel.roundUp capacity < unread.length := by
        have hlast : y.behind i ≤ capacity := hk later List.prefix_rfl
        have hround := Channel.le_roundUp capacity
        rw [hbehind] at hlast
        exact Nat.not_lt.mpr (hlast.trans hround)
      rw [hdrain, answersFor, if_neg hnear, List.nil_append, List.mem_append] at hmem
      rcases hmem with hmem | hmem
      · obtain ⟨e, -, he⟩ := List.mem_map.mp hmem
        cases he
      · have hlast := List.mem_singleton.mp hmem
        split at hlast <;> cases hlast
  · have htold := haccounts.valuesOf_append fun n hn => hl n (List.mem_append_left _ hn)
    rw [hdrain] at hl ⊢
    rw [valuesOf, List.filterMap_append]
    refine Eq.trans ?_ htold
    exact congrArg (valuesOf r.told ++ ·)
      (valuesOf_answersFor fun n hn => hl n (List.mem_append_right _ hn))

/-- **What a subscription is told.**  Take any bus that can be made, anything that is done with it and
its subscriptions while it lasts, a new subscription to a topic or to all, and anything that is done
after that.  The answers to the new subscription account for the events fired on its topic since then,
one by one and in the order of firing, up to the numbers it was told that it missed; what it has still
to read is the rest of them, and as long as the subscription is kept this rest says what it will be
told until nothing is left, even if the bus goes away now.  A channel keeps the least power of two of
events that is not below the capacity asked for, and a subscription that is never further behind than
this capacity is never told that it missed anything. -/
theorem told_of_subscription {capacity : Nat} {bus : Bus} (hb : Bus.create? capacity = .ok bus)
    {before : List Bus.Act} (hd : .drop ∉ before) (topic : Option String) (later : List Bus.Act) :
    let x := (ofBus bus).after before
    let i := x.readers.length
    let y := x.after (.subscribe topic :: later)
    let kept := Channel.roundUp capacity
    IsLeast {m | m.isPowerOfTwo ∧ capacity ≤ m} kept ∧
      ∃ r unread, y.readers[i]? = some r ∧ Accounts r.told (firedOn topic later) unread ∧
        (.unsubscribe i ∉ later → ∃ s, r.place = some s ∧ y.behind i = unread.length ∧
          (y.bus.drain s).1 = answersFor kept y.bus.isOpen unread ∧
          (y.bus.close.drain s).1 = answersFor kept false unread) ∧
        ((∀ p, p <+: later → (x.after (.subscribe topic :: p)).behind i ≤ capacity) →
          ∀ n, .lagged n ∉ r.told) := by
  intro x i y kept
  exact ⟨Channel.isLeast_roundUp capacity, account_of_subscription hb hd topic later⟩

/-- An event of a topic that says nothing. -/
def call (topic : String) : Event Json :=
  ⟨topic, .null, .ofMillis 0, ⟨"", none⟩⟩

/-- A bus that keeps one event of each topic. -/
def narrowBus : Bus :=
  ⟨1, [], .ofCapacity 1, true⟩

/-- The second of two subscriptions to a topic asks after two events of this topic and one of another:
it hears that it missed the first, and has the second still to read. -/
theorem told_of_second_subscription :
    let before : List Bus.Act := [.subscribe (some "ping"), .fire (call "ping")]
    let later : List Bus.Act :=
      [.fire (call "ping"), .fire (call "pong"), .fire (call "ping"), .receive 1]
    let y := (ofBus narrowBus).after (before ++ .subscribe (some "ping") :: later)
    Bus.create? 1 = .ok narrowBus ∧ .drop ∉ before ∧
      ∃ r unread, y.readers[1]? = some r ∧ r.told = [.lagged 1] ∧
        Accounts r.told [call "ping", call "ping"] unread ∧
        ∃ s, r.place = some s ∧ y.behind 1 = unread.length ∧
          (y.bus.drain s).1 = answersFor 1 true unread := by
  intro before later y
  have hb : Bus.create? 1 = .ok narrowBus := rfl
  have hd : .drop ∉ before := by simp [before]
  obtain ⟨-, r, unread, hr, haccounts, hkept, -⟩ := told_of_subscription hb hd (some "ping") later
  obtain ⟨s, hs, hbehind, hdrain, -⟩ := hkept (by simp [later])
  have htold : r.told = [.lagged 1] := by
    obtain rfl := Option.some.inj hr
    rfl
  exact ⟨hb, hd, r, unread, hr, htold, haccounts, s, hs, hbehind, hdrain⟩

end Exchange

end DeviceScript
