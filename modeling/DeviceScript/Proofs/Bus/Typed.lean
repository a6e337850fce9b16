import DeviceScript.Proofs.Bus.Exchange
import DeviceScript.Proofs.Wire.Run
import Mathlib.Data.List.TakeWhile
/-!
# Subscriptions to payloads

A subscription to a payload type reads the events of that type's topic and passes over those whose
payload it cannot make sense of.  So it is told what a plain subscription to the topic is told that
was made at the same time, without these events and with the payloads of the others read
(`Bus.typed_as_plain`): what is missed, and that nothing is left, is told at the same place.

One answer to it is several answers to a plain subscription, all but the last of them about events
that are passed over (`Bus.receiveTyped_eq_asks`).  A drain goes on until nothing is left, for both
alike: what either is told is a function of what is sent since its place and of how it is read
(`Bus.drainFrom_receiveOnly`), and both are at the end of the stream then.  That is the step from one
drain to the next.
-/

namespace DeviceScript

/-! ## 1. Values that make sense -/

/-- An answer about values as one about what they are read as; none for a value that cannot be
read. -/
def Received.readAs {α β : Type} (read : α → Option β) : Received α → Option (Received β)
  | .value v => (read v).map .value
  | .lagged missed => some (.lagged missed)
  | .empty => some .empty
  | .closed => some .closed

namespace Channel.Carries

variable {α β : Type} {c : Channel α} {vs passed rest : List α} {v : α} {w : β} {next : Nat}
  {read : α → Option β}

/-- Missed values are reported to everyone alike. -/
theorem receiveOnly_of_behind (h : c.Carries vs) (hn : next < vs.length - c.capacity) :
    c.receiveOnly read next
      = (.lagged (vs.length - c.capacity - next), vs.length - c.capacity) := by
  rw [receiveOnly, h.oldest_eq, if_pos hn]

/-- Who looks for values that make sense gets the first of them. -/
theorem receiveOnly_of_found (h : c.Carries vs) (hn : vs.length - c.capacity ≤ next)
    (hv : vs.drop next = passed ++ v :: rest) (hp : ∀ u ∈ passed, read u = none)
    (hw : read v = some w) :
    c.receiveOnly read next = (.value w, next + passed.length + 1) := by
  have htake : (passed ++ v :: rest).takeWhile (fun u => (read u).isNone) = passed := by
    rw [List.takeWhile_append_of_pos (by simpa using hp), List.takeWhile_cons_of_neg (by simp [hw]),
      List.append_nil]
  simp only [receiveOnly, h.oldest_eq, if_neg (Nat.not_lt.mpr hn), h.unread_eq hn, hv, htake,
    List.drop_left, List.head?_cons, Option.bind_some, hw]

/-- Who looks for values where none make sense has read them all. -/
theorem receiveOnly_of_none (h : c.Carries vs) (hn : vs.length - c.capacity ≤ next)
    (hnone : ∀ u ∈ vs.drop next, read u = none) :
    c.receiveOnly read next = (c.nothing, next + (vs.drop next).length) := by
  have htake : (vs.drop next).takeWhile (fun u => (read u).isNone) = vs.drop next :=
    List.takeWhile_eq_self_iff.mpr (by simpa using hnone)
  simp only [receiveOnly, h.oldest_eq, if_neg (Nat.not_lt.mpr hn), h.unread_eq hn, htake,
    List.drop_length, List.head?_nil, Option.bind_none]

end Channel.Carries

/-- Either nothing of a list can be read, or there is a first value that can. -/
theorem exists_first_read {α β : Type} (read : α → Option β) (vs : List α) :
    (∀ u ∈ vs, read u = none) ∨
      ∃ passed v w rest, vs = passed ++ v :: rest ∧ (∀ u ∈ passed, read u = none) ∧
        read v = some w := by
  cases hf : vs.findSome? read with
  | none => exact .inl (List.findSome?_eq_none_iff.mp hf)
  | some w =>
    obtain ⟨passed, v, rest, hvs, hv, hp⟩ := List.findSome?_eq_some_iff.mp hf
    exact .inr ⟨passed, v, w, rest, hvs, hp, hv⟩

namespace Bus

variable {α : Type} [Payload α] {b : Bus} {topic : Option String} {c : Channel (Event Json)}
  {es : List (Event Json)} {next : Nat}

/-! ## 2. One answer -/

/-- The answers to asking `n` times, and the subscription after that. -/
def asks {β : Type} (ask : Subscription → Received β × Subscription) :
    (n : Nat) → Subscription → List (Received β) × Subscription
  | 0, s => ([], s)
  | n + 1, s => ((ask s).1 :: (asks ask n (ask s).2).1, (asks ask n (ask s).2).2)

theorem receiveTyped_of_channel? (hc : b.channel? topic = some c) :
    b.receiveTyped α ⟨topic, next⟩ = ((c.receiveOnly Event.payload? next).1,
      ⟨topic, (c.receiveOnly (@Event.payload? α _) next).2⟩) := by
  simp only [receiveTyped, hc]

/-- Who is within reach and asks again and again is told one value after the other. -/
theorem asks_of_drop (hc : b.channel? topic = some c) (hes : c.Carries es)
    {passed rest : List (Event Json)} (hn : es.length - c.capacity ≤ next)
    (hv : es.drop next = passed ++ rest) (k : Nat) :
    asks b.receive (passed.length + k) ⟨topic, next⟩ =
      (passed.map .value ++ (asks b.receive k ⟨topic, next + passed.length⟩).1,
        (asks b.receive k ⟨topic, next + passed.length⟩).2) := by
  induction passed generalizing next with
  | nil => simp
  | cons e passed ih =>
    have hrest : es.drop (next + 1) = passed ++ rest := by
      rw [← List.tail_drop, hv]
      rfl
    rw [List.length_cons, Nat.add_right_comm, asks, receive_of_channel? hc,
      hes.receive_of_drop hn hv]
    simp only [ih (by omega) hrest, List.map_cons, List.cons_append]
    rw [Nat.add_right_comm, Nat.add_assoc next]

theorem readAs_nothing {β γ : Type} (read : β → Option γ) (c : Channel β) :
    (c.nothing : Received β).readAs read = some c.nothing := by
  unfold Channel.nothing
  split <;> rfl

/-- **One answer about payloads is the last of several plain answers**, the others being about
events that are passed over. -/
theorem receiveTyped_eq_asks (α : Type) [Payload α] (h : b.Streams topic es) (next : Nat) :
    ∃ (passed : List (Event Json)) (r : Received (Event Json)),
      (∀ e ∈ passed, (Event.payload? e : Option (Event α)) = none) ∧
      asks b.receive (passed.length + 1) ⟨topic, next⟩ =
        (passed.map .value ++ [r], (b.receiveTyped α ⟨topic, next⟩).2) ∧
      r.readAs Event.payload? = some (b.receiveTyped α ⟨topic, next⟩).1 := by
  obtain ⟨c, hc, hes, -, -⟩ := h
  rw [receiveTyped_of_channel? hc]
  have hone : ∀ next, asks b.receive 1 ⟨topic, next⟩ =
      ([(c.receive next).1], ⟨topic, (c.receive next).2⟩) := fun next => by
    rw [asks, asks, receive_of_channel? hc]
  by_cases hb : next < es.length - c.capacity
  · refine ⟨[], (c.receive next).1, List.forall_mem_nil _, ?_, ?_⟩
    · rw [hes.receiveOnly_of_behind hb, List.length_nil, hone, hes.receive_of_behind hb]
      rfl
    · rw [hes.receiveOnly_of_behind hb, hes.receive_of_behind hb]
      rfl
  have hn : es.length - c.capacity ≤ next := Nat.not_lt.mp hb
  rcases exists_first_read (@Event.payload? α _) (es.drop next) with
    hnone | ⟨passed, v, w, rest, hv, hp, hw⟩
  · have hdone : c.receive (next + (es.drop next).length) =
        (c.nothing, next + (es.drop next).length) :=
      hes.receive_of_done (by rw [List.length_drop]; omega)
    refine ⟨es.drop next, c.nothing, hnone, ?_, ?_⟩
    · rw [asks_of_drop hc hes hn (List.append_nil _).symm, hone, hdone,
        hes.receiveOnly_of_none hn hnone]
    · rw [hes.receiveOnly_of_none hn hnone, readAs_nothing]
  · have hrest : es.drop (next + passed.length) = v :: rest := by
      rw [← List.drop_drop, hv, List.drop_left]
    have hfound := hes.receive_of_drop (by omega) hrest
    refine ⟨passed, .value v, hp, ?_, ?_⟩
    · rw [asks_of_drop hc hes hn hv, hone, hfound, hes.receiveOnly_of_found hn hv hp hw]
    · rw [hes.receiveOnly_of_found hn hv hp hw, Received.readAs, hw]
      rfl

/-! ## 3. Reading until nothing is left -/

section Draining

variable {β : Type} {read : Event Json → Option β}
  {ask : Subscription → Received β × Subscription}

/-- What is said to someone who asks until nothing is left and reads values in some way. -/
def answersAs (read : Event Json → Option β) (capacity : Nat) (isOpen : Bool)
    (unread : List (Event Json)) : List (Received β) :=
  (answersFor capacity isOpen unread).filterMap (Received.readAs read)

theorem filterMap_readAs_value (read : Event Json → Option β) (vs : List (Event Json)) :
    (vs.map .value).filterMap (Received.readAs read) = (vs.filterMap read).map .value := by
  rw [List.filterMap_map, List.map_filterMap]
  rfl

/-- Reading values changes nothing else that is said. -/
theorem answersAs_eq (read : Event Json → Option β) (capacity : Nat) (isOpen : Bool)
    (unread : List (Event Json)) :
    answersAs read capacity isOpen unread =
      (if capacity < unread.length then [.lagged (unread.length - capacity)] else [])
        ++ ((unread.drop (unread.length - capacity)).filterMap read).map .value
        ++ [if isOpen then .empty else .closed] := by
  rw [answersAs, answersFor, List.filterMap_append, List.filterMap_append, filterMap_readAs_value]
  congr 2
  · split <;> rfl
  · cases isOpen <;> rfl

/-- Who is within reach and reads values in some way reads all that was sent since, and hears that
there is no more. -/
theorem drainFrom_receiveOnly_of_reach (hes : c.Carries es)
    (hask : ∀ next, ask ⟨topic, next⟩ =
      ((c.receiveOnly read next).1, ⟨topic, (c.receiveOnly read next).2⟩))
    {n : Nat} (hr : es.length - c.capacity ≤ next) (hle : next ≤ es.length)
    (hn : es.length - next < n) :
    drainFrom ask n ⟨topic, next⟩ =
      (((es.drop next).filterMap read).map .value ++ [if c.isOpen then .empty else .closed],
        ⟨topic, es.length⟩) := by
  induction n generalizing next with
  | zero => omega
  | succ n ih =>
    rw [drainFrom, hask]
    rcases exists_first_read read (es.drop next) with
      hnone | ⟨passed, v, w, rest, hv, hp, hw⟩
    · rw [hes.receiveOnly_of_none hr hnone, List.filterMap_eq_nil_iff.mpr hnone, List.length_drop,
        Nat.add_sub_cancel' hle, Channel.nothing]
      cases c.isOpen <;> rfl
    · have hlen := congrArg List.length hv
      rw [List.length_drop, List.length_append, List.length_cons] at hlen
      have hrest : es.drop (next + passed.length + 1) = rest := by
        rw [← List.tail_drop, ← List.drop_drop, hv, List.drop_left, List.tail_cons]
      have hread : (es.drop next).filterMap read = w :: rest.filterMap read := by
        rw [hv, List.filterMap_append, List.filterMap_eq_nil_iff.mpr hp, List.nil_append,
          List.filterMap_cons_some hw]
      have hmore := @ih (next + passed.length + 1) (by omega) (by omega) (by omega)
      rw [hrest] at hmore
      rw [hes.receiveOnly_of_found hr hv hp hw, hread]
      simp only [hmore, List.map_cons, List.cons_append]

/-- **What is told until nothing is left is a function of what is unread and of how it is read**, and
then all of the stream has been read. -/
theorem drainFrom_receiveOnly (hes : c.Carries es)
    (hask : ∀ next, ask ⟨topic, next⟩ =
      ((c.receiveOnly read next).1, ⟨topic, (c.receiveOnly read next).2⟩))
    (hle : next ≤ es.length) :
    drainFrom ask (c.kept.length + 2) ⟨topic, next⟩ =
      (answersAs read c.capacity c.isOpen (es.drop next), ⟨topic, es.length⟩) := by
  have hkept : c.kept.length = es.length - (es.length - c.capacity) := by
    rw [hes.kept_eq, List.length_drop]
  rw [answersAs_eq, List.length_drop, List.drop_drop]
  by_cases hb : next < es.length - c.capacity
  · have hgap : es.length - next - c.capacity = es.length - c.capacity - next := by omega
    have hrest := drainFrom_receiveOnly_of_reach hes hask (n := c.kept.length + 1) (Nat.le_refl _)
      (Nat.sub_le _ _) (by omega)
    rw [drainFrom, hask, hes.receiveOnly_of_behind hb, if_pos (by omega), hgap,
      Nat.add_sub_cancel' hb.le]
    simp only [hrest, List.cons_append, List.nil_append]
  · have hgap : es.length - next - c.capacity = 0 := by omega
    have hnear : ¬ c.capacity < es.length - next := by omega
    rw [drainFrom_receiveOnly_of_reach hes hask (by omega) hle (by omega), if_neg hnear, hgap,
      Nat.add_zero, List.nil_append]

end Draining

/-- A plain subscription reads every value as it is. -/
theorem receive_eq_receiveOnly {β : Type} (c : Channel β) (next : Nat) :
    c.receive next = c.receiveOnly some next := by
  unfold Channel.receive Channel.receiveOnly
  split
  · rfl
  · cases hv : c.unread next with
    | nil => simp
    | cons v rest => simp

theorem drainBound_of_channel? (hc : b.channel? topic = some c) :
    b.drainBound ⟨topic, next⟩ = c.kept.length + 2 := by
  simp only [drainBound, hc, Option.map_some, Option.getD_some]

/-- What a plain subscription is told until nothing is left, and where it is then. -/
theorem drain_eq_of_streams (h : b.Streams topic es) (hle : next ≤ es.length) :
    b.drain ⟨topic, next⟩ =
      (answersFor (Channel.roundUp b.capacity) b.isOpen (es.drop next), ⟨topic, es.length⟩) := by
  have hfst := drain_eq h hle
  obtain ⟨c, hc, hes, hcap, hop⟩ := h
  have hask : ∀ next, b.receive ⟨topic, next⟩ =
      ((c.receiveOnly some next).1, ⟨topic, (c.receiveOnly some next).2⟩) := fun next => by
    rw [receive_of_channel? hc, receive_eq_receiveOnly]
  have hsnd : (b.drain ⟨topic, next⟩).2 = ⟨topic, es.length⟩ := by
    rw [drain, drainBound_of_channel? hc, drainFrom_receiveOnly hes hask hle]
  exact Prod.ext hfst hsnd

/-- **What a subscription to a payload type is told until nothing is left**: what the plain one is,
read as payloads. -/
theorem drainTyped_eq_of_streams (α : Type) [Payload α] (h : b.Streams topic es)
    (hle : next ≤ es.length) :
    b.drainTyped α ⟨topic, next⟩ =
      (answersAs Event.payload? (Channel.roundUp b.capacity) b.isOpen (es.drop next),
        ⟨topic, es.length⟩) := by
  obtain ⟨c, hc, hes, hcap, hop⟩ := h
  rw [drainTyped, drainBound_of_channel? hc, ← hcap, ← hop]
  exact drainFrom_receiveOnly hes (fun next => receiveTyped_of_channel? hc) hle

/-! ## 4. Any number of drains -/

/-- The bus after several acts. -/
def afterAll (b : Bus) (acts : List Act) : Bus := acts.foldl Bus.act b

/-- The bus and the subscription after some acts and a drain, again and again. -/
def afterDrains {β : Type} (drain : Bus → Subscription → List (Received β) × Subscription) :
    Bus → Subscription → List (List Act) → Bus × Subscription
  | b, s, [] => (b, s)
  | b, s, acts :: rest => afterDrains drain (b.afterAll acts) (drain (b.afterAll acts) s).2 rest

/-- What a subscription is told that is drained after some acts, again and again. -/
def tellings {β : Type} (drain : Bus → Subscription → List (Received β) × Subscription) :
    Bus → Subscription → List (List Act) → List (List (Received β))
  | _, _, [] => []
  | b, s, acts :: rest =>
    (drain (b.afterAll acts) s).1 ::
      tellings drain (b.afterAll acts) (drain (b.afterAll acts) s).2 rest

theorem bus_after (x : Exchange) (acts : List Act) :
    (x.after acts).bus = x.bus.afterAll acts := by
  induction acts generalizing x with
  | nil => rfl
  | cons a acts ih => exact ih (x.act a)

theorem Streams.afterAll (h : b.Streams topic es) (acts : List Act) :
    ∃ more, (b.afterAll acts).Streams topic (es ++ more) := by
  induction acts generalizing b es with
  | nil => exact ⟨[], by rwa [List.append_nil]⟩
  | cons a acts ih =>
    obtain ⟨more, hmore⟩ := ih (h.act a)
    exact ⟨b.firedBy topic a ++ more, by rwa [← List.append_assoc]⟩

/-- **Drain by drain both are told the same**, but for how events are read. -/
theorem tellings_typed (α : Type) [Payload α] (h : b.Streams topic es) (hle : next ≤ es.length)
    (rounds : List (List Act)) :
    tellings (drainTyped α) b ⟨topic, next⟩ rounds =
      (tellings drain b ⟨topic, next⟩ rounds).map (List.filterMap (Received.readAs Event.payload?)) := by
  induction rounds generalizing b es next with
  | nil => rfl
  | cons acts rest ih =>
    obtain ⟨more, hmore⟩ := h.afterAll acts
    have hnext : next ≤ (es ++ more).length := by
      rw [List.length_append]
      omega
    rw [tellings, tellings, drain_eq_of_streams hmore hnext, drainTyped_eq_of_streams α hmore hnext,
      List.map_cons, ih hmore (Nat.le_refl _)]
    rfl

/-- What is told in later rounds goes on from where the earlier ones ended. -/
theorem tellings_append {β : Type} (drain : Bus → Subscription → List (Received β) × Subscription)
    (b : Bus) (s : Subscription) (rounds later : List (List Act)) :
    tellings drain b s (rounds ++ later) = tellings drain b s rounds ++
      tellings drain (afterDrains drain b s rounds).1 (afterDrains drain b s rounds).2 later := by
  induction rounds generalizing b s with
  | nil => rfl
  | cons acts rest ih => exact congrArg (List.cons _) (ih _ _)

theorem capacity_afterAll (b : Bus) (acts : List Act) :
    (b.afterAll acts).capacity = b.capacity := by
  have h := Exchange.capacity_after (.ofBus b) acts
  rwa [bus_after] at h

theorem isOpen_afterAll {acts : List Act} (hd : .drop ∉ acts) :
    (b.afterAll acts).isOpen = b.isOpen := by
  have h := Exchange.isOpen_after (x := .ofBus b) hd
  rwa [bus_after] at h

/-- Who has read all before reads all again in every round. -/
theorem afterDrains_typed (α : Type) [Payload α] (h : b.Streams topic es) {rounds : List (List Act)}
    (hd : ∀ acts ∈ rounds, .drop ∉ acts) :
    ∃ b' es', afterDrains (drainTyped α) b ⟨topic, es.length⟩ rounds = (b', ⟨topic, es'.length⟩) ∧
      b'.Streams topic es' ∧ b'.isOpen = b.isOpen ∧ b'.capacity = b.capacity := by
  induction rounds generalizing b es with
  | nil => exact ⟨b, es, rfl, h, rfl, rfl⟩
  | cons acts rest ih =>
    obtain ⟨hacts, hrest⟩ := List.forall_mem_cons.mp hd
    obtain ⟨more, hmore⟩ := h.afterAll acts
    obtain ⟨b', es', heq, hs, hopen, hcap⟩ := ih hmore hrest
    refine ⟨b', es', ?_, hs, hopen.trans (isOpen_afterAll hacts),
      hcap.trans (capacity_afterAll b acts)⟩
    rw [afterDrains, drainTyped_eq_of_streams α hmore (by rw [List.length_append]; omega)]
    exact heq

/-- What is fired on its topic is the end of a stream. -/
theorem Streams.fires {t : String} (h : b.Streams (some t) es) (ho : b.isOpen = true)
    {fired : List (Event Json)} (ht : ∀ e ∈ fired, e.topic = t) :
    (b.afterAll (fired.map .fire)).Streams (some t) (es ++ fired) := by
  induction fired generalizing b es with
  | nil => rwa [List.append_nil]
  | cons e fired ih =>
    obtain ⟨he, ht⟩ := List.forall_mem_cons.mp ht
    have hact : b.act (.fire e) = b.fire e := if_pos ho
    have hfire := h.fire e
    have hon : IsOn (some t) e := by
      rintro u ⟨⟩
      exact he
    rw [if_pos hon, ← hact] at hfire
    have hall := ih hfire (by rw [hact]; exact ho) ht
    rwa [List.append_assoc] at hall

end Bus

/-! ## 5. Payloads that are fired -/

/-- The payload is read back from its JSON form as what it was. -/
def Payload.IsReadable {α : Type} [Payload α] (data : α) : Prop :=
  Payload.decode? (Payload.encode data) = some data

/-- The event is one in which a payload is fired that is read back as what it was. -/
def Event.IsTyped {α : Type} [Payload α] (e : Event α) : Prop :=
  e = .typed e.data e.fired e.context ∧ Payload.IsReadable e.data

/-- Reading a payload changes nothing else of an event. -/
theorem Event.payload?_eq_some_iff {α : Type} [Payload α] {e : Event Json} {e' : Event α} :
    payload? e = some e' ↔ e'.topic = e.topic ∧ e'.fired = e.fired ∧ e'.context = e.context ∧
      Payload.decode? e.data = some e'.data := by
  unfold payload?
  rw [Option.map_eq_some_iff]
  constructor
  · rintro ⟨data, hdata, rfl⟩
    exact ⟨rfl, rfl, rfl, hdata⟩
  · rintro ⟨ht, hf, hc, hdata⟩
    refine ⟨e'.data, hdata, ?_⟩
    rw [withData, ← ht, ← hf, ← hc]

theorem Event.filterMap_payload?_erased {α : Type} [Payload α] {es : List (Event α)}
    (h : ∀ e ∈ es, e.IsTyped) : (es.map erased).filterMap payload? = es := by
  induction es with
  | nil => rfl
  | cons e es ih =>
    obtain ⟨he, hes⟩ := List.forall_mem_cons.mp h
    rw [List.map_cons, List.filterMap_cons_some (payload?_erased he.2), ih hes]

namespace Bus

variable {b : Bus} {es : List (Event Json)}

/-- Streams on one channel are of the same length. -/
theorem Streams.length_eq {topic : Option String} {es' : List (Event Json)}
    (h : b.Streams topic es) (h' : b.Streams topic es') : es.length = es'.length := by
  obtain ⟨c, hc, hes, -⟩ := h
  obtain ⟨c', hc', hes', -⟩ := h'
  cases hc.symm.trans hc'
  exact hes.sent_eq.symm.trans hes'.sent_eq

/-- **Payloads are delivered as they were fired**, as many as a channel keeps. -/
theorem tellings_of_fired (α : Type) [Payload α] (h : b.Streams (some (Payload.topic α)) es)
    (ho : b.isOpen = true) {rounds : List (List Act)} (hd : ∀ acts ∈ rounds, .drop ∉ acts)
    {fired : List (Event α)} (hf : ∀ e ∈ fired, e.IsTyped) :
    tellings (drainTyped α) b ⟨some (Payload.topic α), es.length⟩
        (rounds ++ [fired.map fun e => .fire e.erased]) =
      tellings (drainTyped α) b ⟨some (Payload.topic α), es.length⟩ rounds ++
        [(if Channel.roundUp b.capacity < fired.length then
            [.lagged (fired.length - Channel.roundUp b.capacity)] else [])
          ++ (fired.drop (fired.length - Channel.roundUp b.capacity)).map .value ++ [.empty]] := by
  obtain ⟨b', es', hafter, hs, hopen, hcap⟩ := afterDrains_typed α h hd
  rw [tellings_append, hafter]
  congr 1
  have htopic : ∀ e ∈ fired.map Event.erased, e.topic = Payload.topic α := by
    intro e he
    obtain ⟨e', he', rfl⟩ := List.mem_map.mp he
    exact congrArg Event.topic (hf e' he').1
  have hfires := hs.fires (hopen.trans ho) htopic
  rw [List.map_map] at hfires
  have hnodrop : .drop ∉ fired.map (Act.fire ∘ Event.erased) := by
    rintro hm
    obtain ⟨e, -, he⟩ := List.mem_map.mp hm
    cases he
  have hrest : ∀ e ∈ fired.drop (fired.length - Channel.roundUp b.capacity), e.IsTyped :=
    fun e he => hf e (List.mem_of_mem_drop he)
  have hle : es'.length ≤ (es' ++ fired.map Event.erased).length := by
    rw [List.length_append]
    omega
  have htold := drainTyped_eq_of_streams α hfires hle
  rw [List.drop_left, answersAs_eq, capacity_afterAll, hcap, isOpen_afterAll hnodrop, hopen, ho,
    List.length_map, ← List.map_drop, Event.filterMap_payload?_erased hrest] at htold
  exact congrArg (fun told => [told]) (congrArg Prod.fst htold)

theorem isSound_afterAll (h : b.IsSound) (acts : List Act) : (b.afterAll acts).IsSound := by
  have hafter := Exchange.isSound_after (x := .ofBus b) h acts
  rwa [bus_after] at hafter

/-- Of two subscriptions to a topic that are made one after the other, both begin at the end of its
stream. -/
theorem IsSound.streams_subscribe (h : b.IsSound) (ho : b.isOpen = true) (topic : String) :
    ∃ es, ((b.subscribe topic).1.subscribe topic).1.Streams (some topic) es ∧
      (b.subscribe topic).2 = ⟨some topic, es.length⟩ ∧
      ((b.subscribe topic).1.subscribe topic).2 = ⟨some topic, es.length⟩ := by
  obtain ⟨es, hes, hplain⟩ := h.streams_join ho (some topic)
  obtain ⟨es', hes', htyped⟩ := (h.join ho (some topic)).streams_join
    ((isOpen_join b (some topic)).trans ho) (some topic)
  have hlen := (hes.join (some topic)).length_eq hes'
  exact ⟨es', hes', hlen ▸ hplain, htyped⟩

/-- **A subscription to payloads is a plain subscription whose events are read.**  Take any bus that
can be made, anything that is done with it while it lasts, and a plain subscription to the topic of
some payload and one to the payload that are made together.  However the bus is used after that, be it
dropped or not, and whenever both are drained, the second is told what the first is told, without the
events whose payload cannot be read and with the payloads of the others read; reading changes nothing
else of an event.  One answer to the second is the last of several to the first, the others being
about events that cannot be read.  Events with payloads that are fired on the bus are told to the
second as they were, up to the oldest ones if there are more than a channel keeps; and all payloads
can be read whose numbers have 64 bits and whose moment is one that timestamps reach. -/
theorem typed_as_plain {capacity : Nat} {bus : Bus} (hb : create? capacity = .ok bus)
    {before : List Act} (hd : .drop ∉ before) (α : Type) [Payload α] :
    let topic := Payload.topic α
    let plain := (bus.afterAll before).subscribe topic
    let typed := plain.1.subscribeTyped α
    let kept := Channel.roundUp capacity
    (∀ rounds, tellings (drainTyped α) typed.1 typed.2 rounds =
        (tellings drain typed.1 plain.2 rounds).map
          (List.filterMap (Received.readAs Event.payload?))) ∧
      (∀ (e : Event Json) (e' : Event α), Event.payload? e = some e' ↔
        e'.topic = e.topic ∧ e'.fired = e.fired ∧ e'.context = e.context ∧
          Payload.decode? e.data = some e'.data) ∧
      (∀ acts next, ∃ (passed : List (Event Json)) (r : Received (Event Json)),
        (∀ e ∈ passed, (Event.payload? e : Option (Event α)) = none) ∧
        asks (typed.1.afterAll acts).receive (passed.length + 1) ⟨some topic, next⟩ =
          (passed.map .value ++ [r], ((typed.1.afterAll acts).receiveTyped α ⟨some topic, next⟩).2) ∧
        r.readAs Event.payload? =
          some ((typed.1.afterAll acts).receiveTyped α ⟨some topic, next⟩).1) ∧
      (∀ (rounds : List (List Act)) (fired : List (Event α)), (∀ acts ∈ rounds, .drop ∉ acts) →
        (∀ e ∈ fired, e.IsTyped) →
        tellings (drainTyped α) typed.1 typed.2 (rounds ++ [fired.map fun e => .fire e.erased]) =
          tellings (drainTyped α) typed.1 typed.2 rounds ++
            [(if kept < fired.length then [.lagged (fired.length - kept)] else [])
              ++ (fired.drop (fired.length - kept)).map .value ++ [.empty]]) ∧
      (∀ c : StateChanged, Payload.IsReadable c) ∧
      (∀ c : CursorChanged, (∀ n ∈ c.line, n < Json.wordBound) → Payload.IsReadable c) ∧
      ∀ e : Log.Event, (∀ n ∈ e.line, n < Json.wordBound) → e.timestamp.IsMoment →
        Payload.IsReadable e := by
  intro topic plain typed kept
  obtain ⟨hsound, hcap, hopen⟩ := isSound_of_create? hb
  have hsound' := isSound_afterAll hsound before
  have hopen' : (bus.afterAll before).isOpen = true := (isOpen_afterAll hd).trans hopen
  obtain ⟨es, hes, hplain, htyped⟩ := hsound'.streams_subscribe hopen' topic
  have hplain' : plain.2 = ⟨some topic, es.length⟩ := hplain
  have htyped' : typed.2 = ⟨some topic, es.length⟩ := htyped
  have hes' : typed.1.Streams (some topic) es := hes
  have hopen'' : typed.1.isOpen = true := by
    refine (isOpen_join plain.1 (some topic)).trans ?_
    exact (isOpen_join _ (some topic)).trans hopen'
  have hcap' : typed.1.capacity = capacity := by
    refine (capacity_join plain.1 (some topic)).trans ?_
    refine (capacity_join _ (some topic)).trans ?_
    rw [capacity_afterAll, hcap]
  refine ⟨fun rounds => ?_, fun e e' => Event.payload?_eq_some_iff, fun acts next => ?_,
    fun rounds fired hrounds hfired => ?_, StateChanged.ofJson?_toJson,
    fun c => CursorChanged.ofJson?_toJson, fun e => Log.Event.ofJson?_toJson⟩
  · rw [hplain', htyped']
    exact tellings_typed α hes' (Nat.le_refl _) rounds
  · obtain ⟨more, hmore⟩ := hes'.afterAll acts
    exact receiveTyped_eq_asks α hmore next
  · have htold := tellings_of_fired α hes' hopen'' hrounds hfired
    rw [hcap'] at htold
    rw [htyped']
    exact htold

/-- The event that the cursor came to a line. -/
def cameTo (line : Nat) : Event CursorChanged :=
  .typed ⟨some line⟩ (.ofMillis 0) ⟨"", none⟩

/-- On a bus that keeps one event of each topic, an event that says nothing is passed over, and the
second of two moves is told. -/
theorem typed_as_plain_narrow :
    let silent : List Act := [.fire (Exchange.call "cursor_changed")]
    let plain := (Exchange.narrowBus.afterAll silent).subscribe "cursor_changed"
    let typed := plain.1.subscribeTyped CursorChanged
    create? 1 = .ok Exchange.narrowBus ∧ .drop ∉ silent ∧
      tellings drain typed.1 plain.2 [silent] =
        [[.value (Exchange.call "cursor_changed"), .empty]] ∧
      tellings (drainTyped CursorChanged) typed.1 typed.2
          ([silent] ++ [[cameTo 1, cameTo 2].map fun e => .fire e.erased]) =
        [[.empty], [.lagged 1, .value (cameTo 2), .empty]] := by
  intro silent plain typed
  have hb : create? 1 = .ok Exchange.narrowBus := rfl
  have hd : .drop ∉ silent := by simp [silent]
  have hplain : tellings drain typed.1 plain.2 [silent] =
      [[.value (Exchange.call "cursor_changed"), .empty]] := rfl
  obtain ⟨hsame, -, -, hfired, -, hcursor, -⟩ := typed_as_plain hb hd CursorChanged
  have htyped : ∀ e ∈ [cameTo 1, cameTo 2], e.IsTyped := by
    have hmove : ∀ line < Json.wordBound, (cameTo line).IsTyped := fun line hline =>
      ⟨rfl, hcursor _ fun n hn => Option.some.inj hn ▸ hline⟩
    exact List.forall_mem_cons.mpr ⟨hmove 1 (by decide), List.forall_mem_singleton.mpr
      (hmove 2 (by decide))⟩
  refine ⟨hb, hd, hplain, (hfired [silent] _ (by simpa using hd) htyped).trans ?_⟩
  have hfirst : tellings (drainTyped CursorChanged) typed.1 typed.2 [silent] = [[.empty]] := by
    refine (hsame [silent]).trans ?_
    exact congrArg (List.map (List.filterMap (Received.readAs Event.payload?))) hplain
  exact congrArg (· ++ _) hfirst

end Bus

end DeviceScript
