import DeviceScript.Config.Settings
/-!
# Sound settings and the devices they set up

Settings are sound when something of the log is kept and the devices have names of their own by
which scripts can address them (`Settings.fault?_eq_none_iff`).  More names are taken on the spot
when every one of them is such a name (`Registry.exists_withNames?_iff`).

So the registry that sound settings set up holds nothing but simulated devices under such names
(`Settings.isOfSimulated_registry?`).  Connecting and disconnecting a device does not change that.
-/

namespace DeviceScript

/-! ## 1. Sound settings -/

/-- What a name is by which a device can be addressed. -/
theorem isDeviceName_iff {name : String} :
    isDeviceName name = true ↔
      name ≠ "" ∧ (∀ c ∈ name.toList, Text.isBlank c = false) ∧ '.' ∉ name.toList := by
  simp [isDeviceName, and_assoc]

namespace Settings

/-- Nothing is wrong with the devices when each has a name that can be addressed and that no other
device has, be it among those before or among these. -/
theorem deviceFault?_eq_none_iff {ds : List DeviceSettings} {seen : List String} :
    deviceFault? seen ds = none ↔
      (∀ d ∈ ds, isDeviceName d.name = true ∧ d.name ∉ seen) ∧ (ds.map (·.name)).Nodup := by
  induction ds generalizing seen with
  | nil => simp [deviceFault?]
  | cons d ds ih =>
    unfold deviceFault?
    by_cases hn : isDeviceName d.name = true
    · by_cases hs : d.name ∈ seen
      · simp [hn, hs]
      · rw [if_neg (by simp [hn]), if_neg (by simp [hs]), ih]
        rw [List.forall_mem_cons, List.map_cons, List.nodup_cons]
        simp only [List.mem_cons, List.mem_map, not_or, not_exists, not_and]
        constructor
        · rintro ⟨hds, hnd⟩
          exact ⟨⟨⟨hn, hs⟩, fun x hx => ⟨(hds x hx).1, (hds x hx).2.2⟩⟩,
            fun x hx => (hds x hx).2.1, hnd⟩
        · rintro ⟨⟨-, hds⟩, hne, hnd⟩
          exact ⟨fun x hx => ⟨(hds x hx).1, hne x hx, (hds x hx).2⟩, hnd⟩
    · simp [hn]

/-- **Settings are sound** when the log keeps something and the devices have names of their own that
can be addressed. -/
theorem fault?_eq_none_iff {s : Settings} :
    s.fault? = none ↔ s.logCapacity ≠ 0 ∧
      (∀ d ∈ s.devices, isDeviceName d.name = true) ∧ (s.devices.map (·.name)).Nodup := by
  unfold fault?
  by_cases hc : s.logCapacity = 0
  · simp [hc]
  · rw [if_neg hc, deviceFault?_eq_none_iff]
    simp [hc]

/-- A name can be addressed exactly when sound settings can have a device of that name. -/
theorem exists_sound_iff {name : String} :
    (∃ s : Settings, s.fault? = none ∧ ∃ d ∈ s.devices, d.name = name) ↔
      isDeviceName name = true := by
  constructor
  · rintro ⟨s, hs, d, hd, rfl⟩
    exact (fault?_eq_none_iff.mp hs).2.1 d hd
  · intro hn
    refine ⟨{ devices := [{ name }] }, ?_, { name }, List.mem_singleton.mpr rfl, rfl⟩
    rw [fault?_eq_none_iff]
    simp [hn]

end Settings

/-- Names are taken on the spot exactly when each of them can be addressed. -/
theorem Registry.exists_withNames?_iff {names : List String} {r : Registry} :
    (∃ r', r.withNames? names = .ok r') ↔ ∀ name ∈ names, isDeviceName name = true := by
  induction names generalizing r with
  | nil => simp [Registry.withNames?]
  | cons name names ih =>
    unfold Registry.withNames?
    by_cases hn : isDeviceName name = true
    · rw [if_neg (by simp [hn]), List.forall_mem_cons]
      split <;> simp [ih, hn]
    · simp [hn]

/-! ## 2. The devices that are set up -/

/-- Every device of the registry is simulated and has a name that can be addressed. -/
def Registry.IsOfSimulated (r : Registry) : Prop :=
  ∀ name d, r.devices.find? name = some d →
    isDeviceName name = true ∧ ∃ sim : Simulated, d = ⟨sim.handler, .simulated, d.connected⟩

namespace Registry.IsOfSimulated

variable {r : Registry} {name : String}

theorem register (h : r.IsOfSimulated) (hn : isDeviceName name = true) (sim : Simulated) :
    (sim.register r name).IsOfSimulated := by
  intro other d hd
  have hf : (r.devices.insert name ⟨sim.handler, .simulated, true⟩).find? other = some d := hd
  rw [Table.find?_insert] at hf
  split at hf
  · rename_i ho
    cases hf
    exact ⟨ho ▸ hn, sim, rfl⟩
  · exact h other d hf

theorem setConnected (h : r.IsOfSimulated) (connected : Bool) :
    (r.setConnected name connected).1.IsOfSimulated := by
  intro other d hd
  have hf : (r.devices.update name ({ · with connected })).find? other = some d := hd
  rw [Table.find?_update] at hf
  split at hf
  · obtain ⟨d', hd', rfl⟩ := Option.map_eq_some_iff.mp hf
    obtain ⟨hn, sim, hsim⟩ := h other d' hd'
    exact ⟨hn, sim, by rw [hsim]⟩
  · exact h other d hf

theorem registerDevice {d : DeviceSettings} (h : r.IsOfSimulated)
    (hn : isDeviceName d.name = true) : (d.register r).IsOfSimulated := by
  unfold DeviceSettings.register
  split
  · exact h.register hn _
  · exact (h.register hn _).setConnected false

theorem registerAll {ds : List DeviceSettings} (h : r.IsOfSimulated)
    (hds : ∀ d ∈ ds, isDeviceName d.name = true) :
    (ds.foldl (fun r (d : DeviceSettings) => d.register r) r).IsOfSimulated := by
  induction ds generalizing r with
  | nil => exact h
  | cons d ds ih =>
    obtain ⟨hd, hds⟩ := List.forall_mem_cons.mp hds
    exact ih (h.registerDevice hd) hds

theorem withNames? {names : List String} {r' : Registry} (h : r.IsOfSimulated)
    (hr : r.withNames? names = .ok r') : r'.IsOfSimulated := by
  induction names generalizing r with
  | nil =>
    cases hr
    exact h
  | cons name names ih =>
    unfold Registry.withNames? at hr
    split at hr
    · cases hr
    · rename_i hn
      split at hr
      · exact ih h hr
      · exact ih (h.register (by simpa using hn) {}) hr

end Registry.IsOfSimulated

/-- **Sound settings set up simulated devices** under names that can be addressed, whatever names
are given on the spot. -/
theorem Settings.isOfSimulated_registry? {s : Settings} {extra : List String} {r : Registry}
    (hs : s.fault? = none) (hr : s.registry? extra = .ok r) : r.IsOfSimulated := by
  have hempty : Registry.empty.IsOfSimulated := fun _ _ h => by cases h
  exact (hempty.registerAll (fault?_eq_none_iff.mp hs).2.1).withNames? hr

end DeviceScript
