import DeviceScript.Bus.Publisher
import DeviceScript.Proofs.Time.Timestamp
/-!
# Payloads that are written and read

Each of the three payloads reads back from its JSON form as what it was
(`StateChanged.ofJson?_toJson`, `CursorChanged.ofJson?_toJson`, `Log.Event.ofJson?_toJson`), and then
the event that was fired with it is got back as a whole (`Event.payload?_erased`).  The JSON form of a
number has 64 bits, so a line must not lie beyond them, and the moment of a log event must be one that
timestamps reach.
-/

namespace DeviceScript

open Wire

/-! ## 1. Parts -/

theorem RunState.ofJson?_toJson (s : RunState) : ofJson? s.toJson = some s := by
  cases s <;> rfl

theorem Log.Kind.ofJson?_toJson (k : Log.Kind) : ofJson? k.toJson = some k := by
  cases k <;> rfl

theorem Timestamp.ofJson?_toJson {t : Timestamp} (h : t.IsMoment) :
    ofJson? t.toJson = some t := by
  rw [ofJson?, toJson, Json.text?, Option.bind_some]
  exact read?_text h

theorem Json.natural?_int {n : Nat} (h : n < wordBound) : natural? (.int n) = some n :=
  if_pos h

/-! ## 2. Payloads -/

theorem StateChanged.ofJson?_toJson (c : StateChanged) : ofJson? c.toJson = some c := by
  obtain ⟨s⟩ := c
  simp [toJson, ofJson?, Json.object, Table.ofEntries, slots?, Table.find?_insert,
    Slot.required?, RunState.ofJson?_toJson]

theorem CursorChanged.ofJson?_toJson {c : CursorChanged}
    (h : ∀ n ∈ c.line, n < Json.wordBound) : ofJson? c.toJson = some c := by
  obtain ⟨line⟩ := c
  have hline : (Slot.given (.ofNat? line)).optional? Json.natural? = some line := by
    cases line with
    | none => rfl
    | some n => exact congrArg (Option.map some) (Json.natural?_int (h n rfl))
  simp [toJson, ofJson?, Json.object, Table.ofEntries, slots?, Table.find?_insert, hline]

/-- What the parts of a log event look like that it may lack. -/
theorem Log.Event.slots?_toJson (e : Log.Event) :
    slots? ["type", "message", "device", "line", "timestamp"] e.toJson =
      some [.given e.kind.toJson, .given (.text e.message),
        (e.device.map fun d => .given (.text d)).getD .missing,
        (e.line.map fun n : Nat => .given (.int n)).getD .missing, .given e.timestamp.toJson] := by
  obtain ⟨⟨kind, message, device, line⟩, t⟩ := e
  have hnone : ∀ name, Table.find? ([] : Table Json) name = none := fun _ => rfl
  cases device <;> cases line <;>
    simp [toJson, Json.objectOfSome, Json.object, Table.ofEntries, slots?, Table.find?_insert, hnone]

theorem Log.Event.ofJson?_toJson {e : Log.Event} (hline : ∀ n ∈ e.line, n < Json.wordBound)
    (ht : e.timestamp.IsMoment) : ofJson? e.toJson = some e := by
  have hdevice : ((e.device.map fun d => Slot.given (.text d)).getD .missing).optional?
      Json.text? = some e.device := by
    cases e.device <;> rfl
  have hline' : ((e.line.map fun n : Nat => Slot.given (.int n)).getD .missing).optional?
      Json.natural? = some e.line := by
    cases hl : e.line with
    | none => rfl
    | some n => exact congrArg (Option.map some) (Json.natural?_int (hline n hl))
  simp only [ofJson?, slots?_toJson, Option.bind_eq_bind, Option.bind_some, Slot.required?,
    Log.Kind.ofJson?_toJson, Json.text?, hdevice, hline', Timestamp.ofJson?_toJson ht]
  rfl

/-! ## 3. Events -/

/-- **An event is got back from its form on the bus**, if its payload is. -/
theorem Event.payload?_erased {α : Type} [Payload α] {e : Event α}
    (h : Payload.decode? (Payload.encode e.data) = some e.data) : payload? e.erased = some e :=
  congrArg (Option.map e.withData) h

end DeviceScript
