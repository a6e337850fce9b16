import DeviceScript.Bus.Channel
import DeviceScript.Table
import DeviceScript.Wire.Run
/-!
# The notification bus

Runs publish events on a bus, and anyone may subscribe to one topic or to all of them.  Each topic
has a channel of its own from its first subscription on; one more channel, the firehose, takes every
event.  A subscription to a payload type is a subscription to that type's topic that passes over
events whose payload cannot be read.

A subscription sees the events that are fired after it was made, in the order of firing, and nothing
of other topics.
-/

namespace DeviceScript

/-- The channels of all topics that were ever subscribed to, and the channel of all events. -/
structure Bus where
  capacity : Nat
  topics : Table (Channel (Event Json))
  firehose : Channel (Event Json)
  isOpen : Bool

/-- A place to read from, and how far it has been read. -/
structure Subscription where
  /-- The topic; none for a subscription to all events. -/
  topic : Option String
  next : Nat
  deriving Repr, DecidableEq

/-- A bus whose channels keep nothing cannot be made. -/
structure NoCapacity where
  deriving Repr, DecidableEq

/-- The refusal in words. -/
def NoCapacity.message (_ : NoCapacity) : String :=
  "broadcast channel capacity cannot be zero"

namespace Bus

/-- The capacity of a bus for which none is asked. -/
def defaultCapacity : Nat := 256

/-- A bus whose channels keep at least this many events. -/
def create? (capacity : Nat) : Except NoCapacity Bus :=
  if capacity = 0 then .error {}
  else .ok ⟨capacity, [], .ofCapacity capacity, true⟩

/-- The channel that a subscription reads from. -/
def channel? (b : Bus) : Option String → Option (Channel (Event Json))
  | none => some b.firehose
  | some topic => b.topics.find? topic

/-- The bus with a channel for this topic. -/
def withTopic (b : Bus) (topic : String) : Bus :=
  if b.topics.contains topic then b
  else { b with topics := b.topics.insert topic (.ofCapacity b.capacity) }

/-- A subscription to a topic; it begins with the next event of the topic. -/
def subscribe (b : Bus) (topic : String) : Bus × Subscription :=
  let b := b.withTopic topic
  (b, ⟨some topic, ((b.topics.find? topic).map (·.sent)).getD 0⟩)

/-- A subscription to the topic of a payload. -/
def subscribeTyped (α : Type) [Payload α] (b : Bus) : Bus × Subscription :=
  b.subscribe (Payload.topic α)

/-- A subscription to all topics; it begins with the next event. -/
def subscribeAll (b : Bus) : Bus × Subscription :=
  (b, ⟨none, b.firehose.sent⟩)

/-- The bus after an event was fired: its topic's channel has it, if there is one, and so has the
firehose. -/
def fire (b : Bus) (e : Event Json) : Bus :=
  { b with
    topics := b.topics.update e.topic (·.send e)
    firehose := b.firehose.send e }

/-- The bus after an event with a payload of its own topic was fired. -/
def fireTyped {α : Type} [Payload α] (b : Bus) (data : α) (fired : Timestamp) (context : Context) :
    Bus :=
  b.fire (Event.typed data fired context).erased

/-- What a subscription gets next, and the subscription after that. -/
def receive (b : Bus) (s : Subscription) : Received (Event Json) × Subscription :=
  match b.channel? s.topic with
  | none => (.closed, s)
  | some c =>
    let (r, next) := c.receive s.next
    (r, { s with next })

/-- What a subscription gets next of events whose payload is of this type, and the subscription
after that. -/
def receiveTyped (α : Type) [Payload α] (b : Bus) (s : Subscription) :
    Received (Event α) × Subscription :=
  match b.channel? s.topic with
  | none => (.closed, s)
  | some c =>
    let (r, next) := c.receiveOnly Event.payload? s.next
    (r, { s with next })

/-- The number of topics that were ever subscribed to. -/
def topicCount (b : Bus) : Nat :=
  b.topics.length

/-- The bus after its end: what its channels keep can still be read. -/
def close (b : Bus) : Bus :=
  { b with
    topics := b.topics.map fun (n, c) => (n, c.close)
    firehose := b.firehose.close
    isOpen := false }

/-- How often a subscription can be asked before it has surely read all it can: once for each event
kept, once for events missed, and once to hear that nothing is left. -/
def drainBound (b : Bus) (s : Subscription) : Nat :=
  ((b.channel? s.topic).map (·.kept.length)).getD 0 + 2

/-- The answers to asking up to `n` times, up to and including the first that says nothing is left,
and the subscription after that. -/
def drainFrom {α : Type} (ask : Subscription → Received α × Subscription) :
    (n : Nat) → Subscription → List (Received α) × Subscription
  | 0, s => ([], s)
  | n + 1, s =>
    match ask s with
    | (.empty, s) => ([.empty], s)
    | (.closed, s) => ([.closed], s)
    | (r, s) =>
      let (rs, s) := drainFrom ask n s
      (r :: rs, s)

/-- All answers up to the one that says nothing is left, and the subscription after that. -/
def drain (b : Bus) (s : Subscription) : List (Received (Event Json)) × Subscription :=
  drainFrom b.receive (b.drainBound s) s

/-- All answers about payloads of this type up to the one that says nothing is left, and the
subscription after that. -/
def drainTyped (α : Type) [Payload α] (b : Bus) (s : Subscription) :
    List (Received (Event α)) × Subscription :=
  drainFrom (b.receiveTyped α) (b.drainBound s) s

end Bus

end DeviceScript
