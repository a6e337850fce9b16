import DeviceScript.Proofs.Wire.Run
import DeviceScript.Wire.Device
/-!
# Values that travel

A value that was read from JSON is written in a form that is read as the same value, whatever the
form was that it was read from: an array, an object with more fields, a moment given with an offset
(`WireType.decode?_encode_of_decode?`).

Two kinds of parts do not have this property of themselves.  A whole number has 64 bits in JSON,
and a timestamp must name a moment that exists; a value that was read has only such parts
(`Log.Event.sound_of_ofJson?`, `CursorChanged.lt_of_ofJson?`, `Event.sound_of_ofJson?`), and those
are the values that are read back.  An event is read back if its payload is, so that the induction
is on the type of payload.
-/

namespace DeviceScript

open Wire

/-! ## 1. Parts that were read -/

namespace Wire.Slot

variable {α : Type} {decode : Json → Option α} {s : Slot} {a : α}

/-- A part that must be given was read from some value. -/
theorem exists_of_required? (h : s.required? decode = some a) : ∃ j, decode j = some a := by
  cases s with
  | given v => exact ⟨v, h⟩
  | missing => cases h
  | beyond => cases h

/-- A part that may be left out and is there was read from some value. -/
theorem exists_of_optional? (h : s.optional? decode = some (some a)) : ∃ j, decode j = some a := by
  unfold optional? at h
  split at h
  · cases h
  · rename_i v _
    obtain ⟨_, hv, ha⟩ := Option.map_eq_some_iff.mp h
    exact ⟨v, hv.trans ha⟩
  · cases h
  · cases h

end Wire.Slot

/-- A whole number that was read has 64 bits. -/
theorem Json.lt_of_natural? {j : Json} {n : Nat} (h : natural? j = some n) : n < wordBound := by
  unfold natural? at h
  split at h
  · obtain ⟨hlt, hn⟩ := Option.ite_none_right_eq_some.mp h
    exact Option.some.inj hn ▸ hlt
  · cases h

/-- A timestamp that was read names a moment that exists. -/
theorem Timestamp.isMoment_of_ofJson? {j : Json} {t : Timestamp} (h : ofJson? j = some t) :
    t.IsMoment := by
  obtain ⟨s, -, hs⟩ := Option.bind_eq_some_iff.mp h
  exact isMoment_of_read? hs

/-- The line of a cursor that was read has 64 bits. -/
theorem CursorChanged.lt_of_ofJson? {j : Json} {c : CursorChanged} (h : ofJson? j = some c) :
    ∀ n ∈ c.line, n < Json.wordBound := by
  intro n hn
  obtain ⟨slots, -, h⟩ := Option.bind_eq_some_iff.mp h
  split at h
  · obtain ⟨line, hline, h⟩ := Option.bind_eq_some_iff.mp h
    obtain rfl := Option.some.inj h
    obtain rfl : line = some n := hn
    obtain ⟨_, hv⟩ := Slot.exists_of_optional? hline
    exact Json.lt_of_natural? hv
  · cases h

/-- A log event that was read has a line of 64 bits and a moment that exists. -/
theorem Log.Event.sound_of_ofJson? {j : Json} {e : Log.Event} (h : ofJson? j = some e) :
    (∀ n ∈ e.line, n < Json.wordBound) ∧ e.timestamp.IsMoment := by
  obtain ⟨slots, -, h⟩ := Option.bind_eq_some_iff.mp h
  split at h
  · obtain ⟨kind, -, h⟩ := Option.bind_eq_some_iff.mp h
    obtain ⟨message, -, h⟩ := Option.bind_eq_some_iff.mp h
    obtain ⟨device, -, h⟩ := Option.bind_eq_some_iff.mp h
    obtain ⟨line, hline, h⟩ := Option.bind_eq_some_iff.mp h
    obtain ⟨timestamp, ht, h⟩ := Option.bind_eq_some_iff.mp h
    obtain rfl := Option.some.inj h
    refine ⟨?_, ?_⟩
    · intro n hn
      obtain rfl : line = some n := hn
      obtain ⟨_, hv⟩ := Slot.exists_of_optional? hline
      exact Json.lt_of_natural? hv
    · obtain ⟨_, hv⟩ := Slot.exists_of_required? ht
      exact Timestamp.isMoment_of_ofJson? hv
  · cases h

/-- An event that was read has a payload that was read and a moment that exists. -/
theorem Event.sound_of_ofJson? {α : Type} {decode : Json → Option α} {j : Json} {e : Event α}
    (h : ofJson? decode j = some e) : (∃ v, decode v = some e.data) ∧ e.fired.IsMoment := by
  obtain ⟨slots, -, h⟩ := Option.bind_eq_some_iff.mp h
  split at h
  · obtain ⟨topic, -, h⟩ := Option.bind_eq_some_iff.mp h
    obtain ⟨data, hdata, h⟩ := Option.bind_eq_some_iff.mp h
    obtain ⟨fired, hfired, h⟩ := Option.bind_eq_some_iff.mp h
    obtain ⟨context, -, h⟩ := Option.bind_eq_some_iff.mp h
    obtain rfl := Option.some.inj h
    obtain ⟨_, hv⟩ := Slot.exists_of_required? hfired
    exact ⟨Slot.exists_of_required? hdata, Timestamp.isMoment_of_ofJson? hv⟩
  · cases h

/-! ## 2. Records that are read back -/

theorem Context.ofJson?_toJson (c : Context) : ofJson? c.toJson = some c := by
  obtain ⟨id, script⟩ := c
  cases script <;>
    simp [toJson, ofJson?, Json.objectOfSome, Json.object, Table.ofEntries, slots?,
      Table.find?_insert, Table.find?, Slot.required?, Slot.optional?, Json.text?]

theorem RunOutcome.ofJson?_toJson (o : RunOutcome) : ofJson? o.toJson = some o := by
  cases o <;>
    simp [toJson, ofJson?, ofNamed?, Json.object, Table.ofEntries, Table.find?_insert,
      Table.find?, Json.text?]

theorem Reply.ofJson?_toJson (r : Reply) : ofJson? r.toJson = some r := by
  obtain ⟨success, error⟩ := r
  cases error <;>
    simp [toJson, ofJson?, Json.objectOfSome, Json.object, Table.ofEntries, slots?,
      Table.find?_insert, Table.find?, Slot.required?, Slot.defaulted?, Json.text?, Json.bool?]

theorem Request.ofJson?_toJson (r : Request) : ofJson? r.toJson = some r := by
  obtain ⟨device, command⟩ := r
  simp [toJson, ofJson?, Json.object, Table.ofEntries, slots?, Table.find?_insert, Slot.required?,
    Json.text?]

/-- **An event is read back**, if its payload is. -/
theorem Event.ofJson?_toJson {α : Type} {encode : α → Json} {decode : Json → Option α}
    {e : Event α} (hdata : decode (encode e.data) = some e.data) (hfired : e.fired.IsMoment) :
    ofJson? decode (e.withData (encode e.data)).toJson = some e := by
  obtain ⟨topic, data, fired, context⟩ := e
  simp [toJson, ofJson?, withData, Json.object, Table.ofEntries, slots?, Table.find?_insert,
    Slot.required?, Json.text?, Timestamp.ofJson?_toJson hfired, Context.ofJson?_toJson, hdata]

/-! ## 3. Parts that may be absent -/

theorem Log.Event.field?_toJson (e : Log.Event) :
    e.toJson.field? "device" = e.device.map .text ∧
      e.toJson.field? "line" = e.line.map fun n => .int n := by
  obtain ⟨⟨kind, message, device, line⟩, t⟩ := e
  cases device <;> cases line <;>
    simp [toJson, Json.objectOfSome, Json.object, Json.field?, Table.ofEntries, Table.find?_insert,
      Table.find?]

theorem Context.field?_toJson (c : Context) :
    c.toJson.field? "script" = c.script.map .text := by
  obtain ⟨id, script⟩ := c
  cases script <;>
    simp [toJson, Json.objectOfSome, Json.object, Json.field?, Table.ofEntries, Table.find?_insert,
      Table.find?]

theorem Reply.field?_toJson (r : Reply) : r.toJson.field? "error" = r.error.map .text := by
  obtain ⟨success, error⟩ := r
  cases error <;>
    simp [toJson, Json.objectOfSome, Json.object, Json.field?, Table.ofEntries, Table.find?_insert,
      Table.find?]

/-! ## 4. The types that travel -/

/-- A type of the values that travel. -/
inductive WireType where
  | logEvent
  | stateChanged
  | cursorChanged
  | context
  | outcome
  | reply
  | request
  /-- Any value of JSON. -/
  | value
  /-- An event with a payload of this type. -/
  | event (payload : WireType)

namespace WireType

/-- The values of the type. -/
def Carrier : WireType → Type
  | logEvent => Log.Event
  | stateChanged => StateChanged
  | cursorChanged => CursorChanged
  | context => Context
  | outcome => RunOutcome
  | reply => Reply
  | request => Request
  | value => Json
  | event payload => Event payload.Carrier

/-- The JSON form of a value. -/
def encode : (w : WireType) → w.Carrier → Json
  | logEvent => Log.Event.toJson
  | stateChanged => StateChanged.toJson
  | cursorChanged => CursorChanged.toJson
  | context => Context.toJson
  | outcome => RunOutcome.toJson
  | reply => Reply.toJson
  | request => Request.toJson
  | value => id
  | event payload => fun (e : Event payload.Carrier) => (e.withData (payload.encode e.data)).toJson

/-- The value that a JSON value denotes. -/
def decode? : (w : WireType) → Json → Option w.Carrier
  | logEvent => Log.Event.ofJson?
  | stateChanged => StateChanged.ofJson?
  | cursorChanged => CursorChanged.ofJson?
  | context => Context.ofJson?
  | outcome => RunOutcome.ofJson?
  | reply => Reply.ofJson?
  | request => Request.ofJson?
  | value => some
  | event payload => Event.ofJson? payload.decode?

/-- **A value that was read is read back.** -/
theorem decode?_encode {w : WireType} {j : Json} {x : w.Carrier} (h : w.decode? j = some x) :
    w.decode? (w.encode x) = some x := by
  induction w generalizing j with
  | logEvent =>
    obtain ⟨hline, ht⟩ := Log.Event.sound_of_ofJson? h
    exact Log.Event.ofJson?_toJson hline ht
  | stateChanged => exact StateChanged.ofJson?_toJson x
  | cursorChanged => exact CursorChanged.ofJson?_toJson (CursorChanged.lt_of_ofJson? h)
  | context => exact Context.ofJson?_toJson x
  | outcome => exact RunOutcome.ofJson?_toJson x
  | reply => exact Reply.ofJson?_toJson x
  | request => exact Request.ofJson?_toJson x
  | value => rfl
  | event payload ih =>
    obtain ⟨⟨v, hv⟩, hfired⟩ := Event.sound_of_ofJson? h
    exact Event.ofJson?_toJson (ih hv) hfired

/-- **What travels arrives.**  Every value that was read from JSON, whatever its form, is written in
a form that is read as the same value.  The parts that may be absent are written exactly when they
are there. -/
theorem decode?_encode_of_decode? :
    (∀ (w : WireType) (j : Json) (x : w.Carrier),
      w.decode? j = some x → w.decode? (w.encode x) = some x) ∧
    (∀ e : Log.Event, e.toJson.field? "device" = e.device.map .text ∧
      e.toJson.field? "line" = e.line.map fun n => .int n) ∧
    (∀ c : Context, c.toJson.field? "script" = c.script.map .text) ∧
    ∀ r : Reply, r.toJson.field? "error" = r.error.map .text :=
  ⟨fun _ _ _ => decode?_encode, Log.Event.field?_toJson, Context.field?_toJson,
    Reply.field?_toJson⟩

/-- An event in the form of an array, fired in a leap second that a clock in another zone shows,
with more digits of the second than are kept. -/
theorem decode?_encode_listed_event :
    (WireType.event .cursorChanged).decode? (.array [.text "cursor_changed", .array [.int 3],
        .text "1990-12-31T15:59:60.5000000009-0800", .array [.text "r", .null]]) =
      some (⟨"cursor_changed", ⟨some 3⟩, ⟨⟨1990, 12, 31⟩, 23, 59, 59, 1500000000⟩, { id := "r" }⟩ :
        Event CursorChanged) ∧
    (WireType.event .cursorChanged).decode? ((WireType.event .cursorChanged).encode
        (⟨"cursor_changed", ⟨some 3⟩, ⟨⟨1990, 12, 31⟩, 23, 59, 59, 1500000000⟩, { id := "r" }⟩ :
          Event CursorChanged)) =
      some (⟨"cursor_changed", ⟨some 3⟩, ⟨⟨1990, 12, 31⟩, 23, 59, 59, 1500000000⟩, { id := "r" }⟩ :
        Event CursorChanged) := by
  have hread : (WireType.event .cursorChanged).decode? (.array [.text "cursor_changed",
        .array [.int 3], .text "1990-12-31T15:59:60.5000000009-0800",
        .array [.text "r", .null]]) =
      some (⟨"cursor_changed", ⟨some 3⟩, ⟨⟨1990, 12, 31⟩, 23, 59, 59, 1500000000⟩, { id := "r" }⟩ :
        Event CursorChanged) := by
    rfl
  exact ⟨hread, decode?_encode_of_decode?.1 (.event .cursorChanged) _ _ hread⟩

end WireType

end DeviceScript
