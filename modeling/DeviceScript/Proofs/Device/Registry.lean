import DeviceScript.Device.Registry
import DeviceScript.Proofs.Table
import Mathlib.Data.Finset.Card
import Mathlib.Logic.Function.Basic
import Std.Data.HashSet.Lemmas
import Std.Data.TreeSet.Lemmas
/-!
# The registry as a map

However devices are registered, connected, disconnected and unregistered, the registry is the finite
map from names to devices that these changes make (`Registry.acts_as_map`).  What one change does is
said once for the map and once for the registry, and the two stay together (`Registry.Holds.act`).
Everything that the registry tells is then told of the map: of one device, of all devices in order,
of those that are connected, and where a command goes.

A directory answers for a set of names, and its answers are determined by which names these are
(`Directory.Answers.Are.unique`).  So the registry answers like an ordered set of the connected names,
and like an unordered one.
-/

namespace DeviceScript

/-! ## 1. Answers of a directory -/

/-- What a directory answers. -/
structure Directory.Answers where
  /-- The connected devices in order. -/
  connected : List String
  /-- Whether a device is connected. -/
  isConnected : String → Bool
  /-- Whether any device is connected. -/
  hasAny : Bool

namespace Directory.Answers

def ofDirectory (d : Directory) : Answers := ⟨d.names, d.isConnected, d.hasAny⟩

def ofRegistry (r : Registry) : Answers := ⟨r.directory.names, r.isConnected, r.hasAny⟩

/-- The answers of an ordered set of names. -/
def ofTreeSet (s : Std.TreeSet String) : Answers := ⟨s.toList, s.contains, !s.toList.isEmpty⟩

/-- The names of an unordered set in order. -/
def sorted (s : Std.HashSet String) : List String := s.toList.mergeSort fun a b => decide (a ≤ b)

/-- The answers of an unordered set of names. -/
def ofHashSet (s : Std.HashSet String) : Answers := ⟨sorted s, s.contains, !(sorted s).isEmpty⟩

/-- The answers are those for exactly the names that are connected. -/
structure Are (a : Answers) (Connected : String → Prop) : Prop where
  inOrder : a.connected.Pairwise (· < ·)
  mem : ∀ name, name ∈ a.connected ↔ Connected name
  isConnected : ∀ name, a.isConnected name = true ↔ Connected name
  hasAny : a.hasAny = true ↔ ∃ name, Connected name

variable {a b : Answers} {P Q : String → Prop}

theorem Are.congr (h : a.Are P) (hPQ : ∀ name, P name ↔ Q name) : a.Are Q := by
  obtain rfl : P = Q := funext fun name => propext (hPQ name)
  exact h

/-- **The answers are determined by the names that are connected.** -/
theorem Are.unique (h : a.Are P) (h' : b.Are P) : a = b := by
  have hnames : a.connected = b.connected :=
    h.inOrder.eq_of_mem_iff h'.inOrder fun name => (h.mem name).trans (h'.mem name).symm
  have heach : a.isConnected = b.isConnected := funext fun name =>
    Bool.eq_iff_iff.mpr ((h.isConnected name).trans (h'.isConnected name).symm)
  have hany : a.hasAny = b.hasAny := Bool.eq_iff_iff.mpr (h.hasAny.trans h'.hasAny.symm)
  cases a
  cases b
  cases hnames
  cases heach
  cases hany
  rfl

theorem not_isEmpty_iff {l : List String} (h : ∀ name, name ∈ l ↔ P name) :
    (!l.isEmpty) = true ↔ ∃ name, P name := by
  rw [Bool.not_eq_true', List.isEmpty_eq_false_iff_exists_mem]
  exact exists_congr h

theorem inOrder_insertName {l : List String} (h : l.Pairwise (· < ·)) (name : String) :
    (insertName name l).Pairwise (· < ·) := by
  induction l with
  | nil => exact List.pairwise_singleton _ _
  | cons n l ih =>
    obtain ⟨hn, hl⟩ := List.pairwise_cons.mp h
    unfold insertName
    split
    · rename_i hlt
      exact List.pairwise_cons.mpr
        ⟨List.forall_mem_cons.mpr ⟨hlt, fun m hm => lt_trans hlt (hn m hm)⟩, h⟩
    · rename_i hge
      split
      · exact h
      · rename_i hne
        have hgt : n < name := lt_of_le_of_ne (not_lt.mp hge) (Ne.symm hne)
        refine List.pairwise_cons.mpr ⟨fun m hm => ?_, ih hl⟩
        rcases mem_insertName.mp hm with rfl | hm
        · exact hgt
        · exact hn m hm

theorem inOrder_ofNames (names : List String) : (ofNames names).names.Pairwise (· < ·) := by
  have hfold : ∀ acc : List String, acc.Pairwise (· < ·) →
      (names.foldl (fun acc n => insertName n acc) acc).Pairwise (· < ·) := by
    induction names with
    | nil => exact fun acc h => h
    | cons n names ih => exact fun acc h => ih _ (inOrder_insertName h n)
  exact hfold [] .nil

theorem are_ofNames (names : List String) :
    (ofDirectory (ofNames names)).Are (· ∈ names) where
  inOrder := inOrder_ofNames names
  mem _ := mem_ofNames
  isConnected _ := List.contains_iff_mem.trans mem_ofNames
  hasAny := not_isEmpty_iff fun _ => mem_ofNames

theorem are_ofTreeSet (s : Std.TreeSet String) : (ofTreeSet s).Are (· ∈ s) where
  inOrder := s.ordered_toList.imp fun h => compare_lt_iff_lt.mp h
  mem _ := Std.TreeSet.mem_toList
  isConnected _ := Std.TreeSet.mem_iff_contains.symm
  hasAny := not_isEmpty_iff fun _ => Std.TreeSet.mem_toList

theorem mem_sorted {s : Std.HashSet String} {name : String} : name ∈ sorted s ↔ name ∈ s := by
  rw [sorted, List.mem_mergeSort, Std.HashSet.mem_toList]

theorem inOrder_sorted (s : Std.HashSet String) : (sorted s).Pairwise (· < ·) := by
  have hle : (sorted s).Pairwise (· ≤ ·) :=
    (List.pairwise_mergeSort (by simpa using fun a b c => le_trans)
      (by simpa using le_total) s.toList).imp of_decide_eq_true
  have hdistinct : s.toList.Nodup := s.distinct_toList.imp fun h => by simpa using h
  have hne : (sorted s).Nodup := (List.mergeSort_perm _ _).nodup_iff.mpr hdistinct
  exact (hle.and hne).imp fun h => lt_of_le_of_ne h.1 h.2

theorem are_ofHashSet (s : Std.HashSet String) : (ofHashSet s).Are (· ∈ s) where
  inOrder := inOrder_sorted s
  mem _ := mem_sorted
  isConnected _ := Std.HashSet.mem_iff_contains.symm
  hasAny := not_isEmpty_iff fun _ => mem_sorted

end Directory.Answers

/-! ## 2. Changes -/

/-- The devices by name. -/
abbrev DeviceMap := String → Option Device

namespace Registry

/-- A change of the registry. -/
inductive Act where
  | register (name : String) (connection : Connection) (handler : Handler)
  | setConnected (name : String) (connected : Bool)
  | unregister (name : String)

/-- The registry after a change. -/
def act (r : Registry) : Act → Registry
  | .register name connection handler => r.register name connection handler
  | .setConnected name connected => (r.setConnected name connected).1
  | .unregister name => (r.unregister name).1

/-- The registry after some changes. -/
def after (r : Registry) (acts : List Act) : Registry := acts.foldl act r

end Registry

/-- The map after a change: a device is registered anew with its handler, its connection and as
connected; only the last of these changes later on. -/
def DeviceMap.act (m : DeviceMap) : Registry.Act → DeviceMap
  | .register name connection handler => Function.update m name (some ⟨handler, connection, true⟩)
  | .setConnected name connected =>
    Function.update m name ((m name).map fun d => ⟨d.handler, d.connection, connected⟩)
  | .unregister name => Function.update m name none

/-- The map after some changes. -/
def DeviceMap.after (m : DeviceMap) (acts : List Registry.Act) : DeviceMap := acts.foldl act m

/-- A device of this name is connected. -/
def DeviceMap.IsConnected (m : DeviceMap) (name : String) : Prop :=
  ∃ d, m name = some d ∧ d.connected = true

namespace Registry

/-- The registry holds the devices of the map, in order. -/
structure Holds (r : Registry) (m : DeviceMap) : Prop where
  inOrder : r.devices.InOrder
  find : ∀ name, r.devices.find? name = m name

variable {r : Registry} {m : DeviceMap}

theorem holds_empty : empty.Holds fun _ => none := ⟨Table.inOrder_nil, fun _ => rfl⟩

/-- **A change is the same change of the map.** -/
theorem Holds.act (h : r.Holds m) (a : Act) : (r.act a).Holds (m.act a) := by
  cases a with
  | register name connection handler =>
    refine ⟨h.inOrder.insert _ _, fun other => ?_⟩
    have hfind := Table.find?_insert r.devices name ⟨handler, connection, true⟩ other
    rw [h.find] at hfind
    exact hfind.trans (Function.update_apply m name _ other).symm
  | setConnected name connected =>
    refine ⟨h.inOrder.update name ({ · with connected }), fun other => ?_⟩
    have hfind := Table.find?_update r.devices name ({ · with connected }) other
    rw [h.find] at hfind
    refine hfind.trans ?_
    rw [DeviceMap.act, Function.update_apply]
    split
    · rename_i heq
      rw [heq]
    · rfl
  | unregister name =>
    refine ⟨h.inOrder.erase _, fun other => ?_⟩
    have hfind := Table.find?_erase r.devices name other
    rw [h.find] at hfind
    exact hfind.trans (Function.update_apply m name _ other).symm

theorem Holds.after (h : r.Holds m) (acts : List Act) : (r.after acts).Holds (m.after acts) := by
  induction acts generalizing r m with
  | nil => exact h
  | cons a acts ih => exact ih (h.act a)

/-! ## 3. What the registry tells -/

/-- The registry is the map to everyone who asks it or hands it a command. -/
structure ActsAs (r : Registry) (m : DeviceMap) : Prop where
  info : ∀ name, r.info? name = (m name).map fun d => ⟨name, d.connection, d.connected⟩
  isRegistered : ∀ name, r.isRegistered name = (m name).isSome
  /-- Whoever connects, disconnects or unregisters a device is told whether there was one. -/
  known : ∀ name, (∀ connected, (r.setConnected name connected).2 = (m name).isSome) ∧
    (r.unregister name).2 = (m name).isSome
  size : ∃ names : Finset String, (∀ name, name ∈ names ↔ (m name).isSome) ∧ r.size = names.card
  /-- All devices are told in the order of their names, no name twice. -/
  infosInOrder : r.infos.Pairwise fun i j => i.name < j.name
  memInfos : ∀ i, i ∈ r.infos ↔ r.info? i.name = some i
  /-- So are the names of the connected ones. -/
  connectedInOrder : r.directory.names.Pairwise (· < ·)
  /-- The connected devices are those of a list of names, … -/
  ofNames : ∀ names : List String, (∀ name, name ∈ names ↔ m.IsConnected name) →
    Directory.Answers.ofRegistry r = .ofDirectory (Directory.ofNames names)
  /-- … of an ordered set, … -/
  ofTreeSet : ∀ s : Std.TreeSet String, (∀ name, name ∈ s ↔ m.IsConnected name) →
    Directory.Answers.ofRegistry r = .ofTreeSet s
  /-- … and of an unordered one. -/
  ofHashSet : ∀ s : Std.HashSet String, (∀ name, name ∈ s ↔ m.IsConnected name) →
    Directory.Answers.ofRegistry r = .ofHashSet s
  /-- A command goes to the handler of its device if it is not blank and the device connected. -/
  dispatch : ∀ req handler, r.dispatch? req = .ok handler ↔
    Text.allBlank req.command.toList = false ∧
      ∃ connection, m req.device = some ⟨handler, connection, true⟩
  /-- The handler gets the command as it is. -/
  handle : ∀ req handler, r.dispatch? req = .ok handler → r.handle req = handler req
  /-- A command goes nowhere if it is blank, else if the device is unknown, else if it is not
  connected. -/
  refuse : ∀ req e, r.dispatch? req = .error e ↔
    Text.allBlank req.command.toList = true ∧ e = .emptyCommand ∨
      Text.allBlank req.command.toList = false ∧
        (m req.device = none ∧ e = .unknownDevice req.device ∨
          (m req.device).isSome ∧ ¬ m.IsConnected req.device ∧ e = .notConnected req.device)
  /-- What goes nowhere is answered with the refusal, at once. -/
  handleRefused : ∀ req e, r.dispatch? req = .error e → r.handle req = .after 0 (.failed e)

section Holds

variable (h : r.Holds m)
include h

theorem Holds.info? (name : String) :
    r.info? name = (m name).map fun d => ⟨name, d.connection, d.connected⟩ := by
  rw [Registry.info?, h.find]

theorem Holds.isRegistered_eq (name : String) : r.isRegistered name = (m name).isSome := by
  rw [isRegistered, Table.contains, h.find]

/-- The entries are the devices of the map. -/
theorem Holds.mem_devices_iff {name : String} {d : Device} :
    (name, d) ∈ r.devices ↔ m name = some d := by
  rw [← h.inOrder.find?_eq_some_iff, h.find]

theorem Holds.mem_infos (i : DeviceInfo) : i ∈ r.infos ↔ r.info? i.name = some i := by
  rw [h.info?, Option.map_eq_some_iff, infos, List.mem_map]
  constructor
  · rintro ⟨⟨name, d⟩, hd, rfl⟩
    exact ⟨d, h.mem_devices_iff.mp hd, rfl⟩
  · rintro ⟨d, hd, hi⟩
    exact ⟨(i.name, d), h.mem_devices_iff.mpr hd, hi⟩

theorem Holds.infos_inOrder : r.infos.Pairwise fun i j => i.name < j.name :=
  List.pairwise_map.mpr h.inOrder

theorem Holds.size_eq :
    ∃ names : Finset String, (∀ name, name ∈ names ↔ (m name).isSome) ∧ r.size = names.card := by
  refine ⟨⟨r.devices.names, h.inOrder.nodup_names⟩, fun name => ?_, ?_⟩
  · rw [← h.find, Table.isSome_find?_iff]
    rfl
  · exact (List.length_map _).symm

theorem Holds.isConnected_iff (name : String) : r.isConnected name = true ↔ m.IsConnected name := by
  rw [isConnected, h.find, Option.any_eq_true]
  rfl

theorem Holds.mem_directory_iff (name : String) :
    name ∈ r.directory.names ↔ m.IsConnected name := by
  unfold directory DeviceMap.IsConnected
  rw [List.mem_map]
  constructor
  · rintro ⟨⟨n, d⟩, hd, rfl⟩
    obtain ⟨hmem, hconnected⟩ := List.mem_filter.mp hd
    exact ⟨d, h.mem_devices_iff.mp hmem, hconnected⟩
  · rintro ⟨d, hd, hconnected⟩
    exact ⟨(name, d), List.mem_filter.mpr ⟨h.mem_devices_iff.mpr hd, hconnected⟩, rfl⟩

/-- **The directory answers for the connected names.** -/
theorem Holds.are : (Directory.Answers.ofRegistry r).Are m.IsConnected where
  inOrder := List.pairwise_map.mpr (List.Pairwise.filter _ h.inOrder)
  mem := h.mem_directory_iff
  isConnected := h.isConnected_iff
  hasAny := by
    rw [← exists_congr h.mem_directory_iff]
    simp [Directory.Answers.ofRegistry, hasAny, directory, List.any_eq_true]

/-- What is not blank goes where the map says. -/
theorem Holds.dispatch?_of_not_blank {req : Request}
    (hblank : Text.allBlank req.command.toList = false) :
    r.dispatch? req = (m req.device).elim (.error (.unknownDevice req.device)) fun d =>
      if d.connected then .ok d.handler else .error (.notConnected req.device) := by
  rw [dispatch?, if_neg (by simp [hblank]), h.find]
  cases m req.device <;> rfl

theorem Holds.dispatch?_eq_ok_iff (req : Request) (handler : Handler) :
    r.dispatch? req = .ok handler ↔ Text.allBlank req.command.toList = false ∧
      ∃ connection, m req.device = some ⟨handler, connection, true⟩ := by
  cases hblank : Text.allBlank req.command.toList with
  | true => simp [dispatch?, hblank]
  | false =>
    rw [h.dispatch?_of_not_blank hblank]
    cases hd : m req.device with
    | none => simp
    | some d =>
      obtain ⟨handler', connection, connected⟩ := d
      cases connected <;> simp

theorem Holds.dispatch?_eq_error_iff (req : Request) (e : GatewayError) :
    r.dispatch? req = .error e ↔
      Text.allBlank req.command.toList = true ∧ e = .emptyCommand ∨
        Text.allBlank req.command.toList = false ∧
          (m req.device = none ∧ e = .unknownDevice req.device ∨
            (m req.device).isSome ∧ ¬ m.IsConnected req.device ∧ e = .notConnected req.device) := by
  cases hblank : Text.allBlank req.command.toList with
  | true => simp [dispatch?, hblank, @eq_comm _ e]
  | false =>
    rw [h.dispatch?_of_not_blank hblank]
    unfold DeviceMap.IsConnected
    cases hd : m req.device with
    | none => simp [@eq_comm _ e]
    | some d =>
      obtain ⟨handler', connection, connected⟩ := d
      cases connected <;> simp [@eq_comm _ e]

end Holds

/-- **The registry is a map**, whatever was done to it. -/
theorem acts_as_map (acts : List Act) :
    (empty.after acts).ActsAs (DeviceMap.after (fun _ => none) acts) := by
  have h := holds_empty.after acts
  exact {
    info := h.info?
    isRegistered := h.isRegistered_eq
    known := fun name => ⟨fun _ => h.isRegistered_eq name, h.isRegistered_eq name⟩
    size := h.size_eq
    infosInOrder := h.infos_inOrder
    memInfos := h.mem_infos
    connectedInOrder := h.are.inOrder
    ofNames := fun names hn => h.are.unique ((Directory.Answers.are_ofNames names).congr hn)
    ofTreeSet := fun s hs => h.are.unique ((Directory.Answers.are_ofTreeSet s).congr hs)
    ofHashSet := fun s hs => h.are.unique ((Directory.Answers.are_ofHashSet s).congr hs)
    dispatch := h.dispatch?_eq_ok_iff
    handle := fun req handler hd => by rw [Registry.handle, hd]
    refuse := h.dispatch?_eq_error_iff
    handleRefused := fun req e he => by rw [Registry.handle, he] }

/-- A device that is registered again after it was disconnected, and one that is disconnected. -/
def replacedActs : List Act :=
  [.register "b" .usb fun _ => .never, .register "a" .usb fun _ => .never, .setConnected "a" false,
    .setConnected "b" false, .register "a" .network fun _ => .after 0 (.replied .ok)]

/-- The second handler gets the command, and the device is the connected one. -/
theorem acts_as_map_replaced :
    (empty.after replacedActs).handle ⟨"a", " go "⟩ = .after 0 (.replied .ok) ∧
      (empty.after replacedActs).handle ⟨"b", "go"⟩ = .after 0 (.failed (.notConnected "b")) ∧
      Directory.Answers.ofRegistry (empty.after replacedActs) =
        .ofTreeSet (Std.TreeSet.ofList ["a"]) := by
  have h := acts_as_map replacedActs
  have hfind : ∀ name, DeviceMap.after (fun _ => none) replacedActs name =
      if name = "a" then some ⟨fun _ => .after 0 (.replied .ok), .network, true⟩
      else if name = "b" then some ⟨fun _ => .never, .usb, false⟩ else none := by
    intro name
    simp only [DeviceMap.after, replacedActs, List.foldl_cons, List.foldl_nil, DeviceMap.act,
      Function.update_apply]
    by_cases ha : name = "a"
    · simp [ha]
    · by_cases hb : name = "b" <;> simp [ha, hb]
  refine ⟨?_, ?_, h.ofTreeSet _ fun name => ?_⟩
  · have hd := (h.dispatch ⟨"a", " go "⟩ _).mpr ⟨by decide, .network, hfind "a"⟩
    exact h.handle _ _ hd
  · have hnot : ¬ DeviceMap.IsConnected (DeviceMap.after (fun _ => none) replacedActs) "b" := by
      rintro ⟨d, hd, hc⟩
      rw [hfind] at hd
      cases hd
      cases hc
    exact h.handleRefused _ _ ((h.refuse ⟨"b", "go"⟩ _).mpr
      (.inr ⟨by decide, .inr ⟨by rw [hfind]; rfl, hnot, rfl⟩⟩))
  · unfold DeviceMap.IsConnected
    rw [Std.TreeSet.mem_ofList, hfind]
    by_cases ha : name = "a"
    · simp [ha]
    · by_cases hb : name = "b" <;> simp [ha, hb]

end Registry

end DeviceScript
