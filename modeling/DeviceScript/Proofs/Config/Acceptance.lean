import DeviceScript.Config.Loading
import DeviceScript.Proofs.Config.Decode
import DeviceScript.Proofs.Config.Settings
import DeviceScript.Proofs.Config.Substitution
import DeviceScript.Proofs.Yaml.Words
/-!
# Which values are settings

A value is accepted as settings exactly when it is null, or a mapping whose entries describe
settings (`Settings.Describes`), and these settings are sound (`Settings.IsSound`).  Omitted settings
have their standard values, and the order of entries does not matter, for devices neither.  If
nothing but the devices is wrong, the first one that is gives the error (`Settings.settings_of_value`).

Tags are passed over on keys and on values, except on the mode, where a tag is itself the name and has
to stand on nothing (`Decoder.MeansMode`).  So a key may be a name with a tag, which is not the name
itself (`Settings.exists_tagged_setting`), and the same setting can then be named twice; that is
refused.

Whole numbers that are read from a text have at most 64 bits (`Yaml.fitsWords_of_read?`), and so have
those of settings that were loaded (`Settings.fitsWords_of_load`).
-/

namespace DeviceScript

open Yaml (Value)
open Yaml.Value (Rearranged)
open Decoder

/-- A field that is one of the draft's slots, `fill` being how it is taken in. -/
theorem Decoder.IsSlot.of_fill {α δ : Type} {known : List String} {name : String}
    {field : δ → String → Value → Except DecodeError δ} {slot : δ → Option α} {read : Decoder α}
    (fill : δ → Option α → δ)
    (hfield : ∀ d v, field d name v = do pure (fill d (← fresh name (slot d) read v)))
    (hfill : ∀ d a, slot (fill d a) = a)
    (hother : ∀ {d d' n v}, n ∈ known → n ≠ name → field d n v = .ok d' → slot d' = slot d) :
    IsSlot known field name slot read where
  own {d d' v} h := by
    rw [hfield] at h
    cases hf : fresh name (slot d) read v with
    | error e =>
      rw [hf] at h
      cases h
    | ok after =>
      rw [hf] at h
      cases h
      obtain ⟨hfree, a, ha, rfl⟩ := fresh_eq_ok_iff.mp hf
      exact ⟨hfree, a, ha, hfill d _⟩
  free {d v a} hfree ha := by
    refine ⟨fill d (some a), ?_⟩
    rw [hfield, fresh_eq_ok_iff.mpr ⟨hfree, a, ha, rfl⟩]
    rfl
  other := hother

theorem exists_of_pure_eq_ok {α β ε : Type} {x : Except ε α} {fill : α → β} {b : β}
    (h : (do pure (fill (← x))) = Except.ok b) : ∃ a, b = fill a := by
  cases x with
  | error e => cases h
  | ok a => exact ⟨a, (Except.ok.inj h).symm⟩

/-! ## 1. Devices -/

namespace DeviceSettings

/-- The entries describe the device. -/
structure Describes (es : List (Value × Value)) (d : DeviceSettings) : Prop where
  keys : WellKeyed fieldNames es
  name : ∃ e ∈ es, IsName e.1 "name" ∧ MeansText e.2 d.name
  latency : FieldIs es "latency_ms" MeansNatural 0 d.latency
  reject : FieldIs es "reject" (MeansList MeansText) [] d.reject
  connected : FieldIs es "connected" MeansBool true d.connected

/-- The value is a mapping that describes the device. -/
def Means (v : Value) (d : DeviceSettings) : Prop := ∃ es, HasEntries v es ∧ Describes es d

variable {es gs : List (Value × Value)} {d d' : DeviceSettings}

theorem Describes.unique (h : Describes es d) (h' : Describes es d') : d = d' := by
  obtain ⟨e, he, hname, hd⟩ := h.name
  obtain ⟨e', he', hname', hd'⟩ := h'.name
  cases h.keys.eq_of_isName he he' hname hname'
  have hn : d.name = d'.name := reads_text.unique hd hd'
  have hl : d.latency = d'.latency := (h.latency).unique (reads_natural "u64") h.keys h'.latency
  have hr : d.reject = d'.reject := (h.reject).unique (reads_list reads_text) h.keys h'.reject
  have hc : d.connected = d'.connected := (h.connected).unique reads_bool h.keys h'.connected
  cases d
  cases d'
  cases hn
  cases hl
  cases hr
  cases hc
  rfl

/-- All fields but the one of this name are as they were. -/
structure Draft.KeepsOthers (d d' : Draft) (n : String) : Prop where
  name : n ≠ "name" → d'.name = d.name
  latency : n ≠ "latency_ms" → d'.latency = d.latency
  reject : n ≠ "reject" → d'.reject = d.reject
  connected : n ≠ "connected" → d'.connected = d.connected

/-- Taking in a field leaves the others as they were. -/
theorem Draft.keepsOthers {d d' : Draft} {n : String} {v : Value} (hn : n ∈ fieldNames)
    (h : d.field n v = .ok d') : d.KeepsOthers d' n := by
  simp only [fieldNames, List.mem_cons, List.not_mem_nil, or_false] at hn
  rcases hn with rfl | rfl | rfl | rfl <;> obtain ⟨a, rfl⟩ := exists_of_pure_eq_ok h
  · exact ⟨absurd rfl, fun _ => rfl, fun _ => rfl, fun _ => rfl⟩
  · exact ⟨fun _ => rfl, absurd rfl, fun _ => rfl, fun _ => rfl⟩
  · exact ⟨fun _ => rfl, fun _ => rfl, absurd rfl, fun _ => rfl⟩
  · exact ⟨fun _ => rfl, fun _ => rfl, fun _ => rfl, absurd rfl⟩

theorem isSlot_name : IsSlot fieldNames Draft.field "name" Draft.name text :=
  .of_fill (fun d a => { d with name := a }) (fun _ _ => rfl) (fun _ _ => rfl)
    fun hn hne h => (Draft.keepsOthers hn h).name hne

theorem isSlot_latency :
    IsSlot fieldNames Draft.field "latency_ms" Draft.latency (natural "u64") :=
  .of_fill (fun d a => { d with latency := a }) (fun _ _ => rfl) (fun _ _ => rfl)
    fun hn hne h => (Draft.keepsOthers hn h).latency hne

theorem isSlot_reject : IsSlot fieldNames Draft.field "reject" Draft.reject (list text) :=
  .of_fill (fun d a => { d with reject := a }) (fun _ _ => rfl) (fun _ _ => rfl)
    fun hn hne h => (Draft.keepsOthers hn h).reject hne

theorem isSlot_connected : IsSlot fieldNames Draft.field "connected" Draft.connected bool :=
  .of_fill (fun d a => { d with connected := a }) (fun _ _ => rfl) (fun _ _ => rfl)
    fun hn hne h => (Draft.keepsOthers hn h).connected hne

theorem areSlots : AreSlots fieldNames Draft.field := by
  intro n hn
  simp only [fieldNames, List.mem_cons, List.not_mem_nil, or_false] at hn
  rcases hn with rfl | rfl | rfl | rfl
  · exact ⟨_, _, _, isSlot_name⟩
  · exact ⟨_, _, _, isSlot_latency⟩
  · exact ⟨_, _, _, isSlot_reject⟩
  · exact ⟨_, _, _, isSlot_connected⟩

/-- Entries that describe a device can be taken in. -/
theorem Describes.exists_taking (h : Describes es d) :
    ∃ draft, taking fieldNames Draft.field {} es = .ok draft := by
  refine (exists_taking_iff areSlots).mpr ⟨h.keys, fun e he n hn => ?_⟩
  have hmem := h.keys.mem he hn
  simp only [fieldNames, List.mem_cons, List.not_mem_nil, or_false] at hmem
  have hname : FieldIs es "name" MeansText d.name d.name := .inl h.name
  rcases hmem with rfl | rfl | rfl | rfl
  · exact isSlot_name.exists_field reads_text rfl h.keys hname e he hn
  · exact isSlot_latency.exists_field (reads_natural _) rfl h.keys h.latency e he hn
  · exact isSlot_reject.exists_field (reads_list reads_text) rfl h.keys h.reject e he hn
  · exact isSlot_connected.exists_field reads_bool rfl h.keys h.connected e he hn

/-- What a draft holds is described by the entries that it has taken in. -/
theorem describes_of_taking {draft : Draft} {name : String}
    (ht : taking fieldNames Draft.field {} es = .ok draft) (hname : draft.name = some name) :
    Describes es ⟨name, draft.latency.getD 0, draft.reject.getD [], draft.connected.getD true⟩ where
  keys := ((exists_taking_iff areSlots).mp ⟨draft, ht⟩).1
  name := by
    rcases isSlot_name.after_taking ht with ⟨e, he, hen, -, a, ha, hfull⟩ | ⟨-, hsame⟩
    · cases hfull.symm.trans hname
      exact ⟨e, he, hen, (reads_text _ _).mp ha⟩
    · cases hsame.symm.trans hname
  latency := isSlot_latency.fieldIs (reads_natural _) rfl ht 0
  reject := isSlot_reject.fieldIs (reads_list reads_text) rfl ht []
  connected := isSlot_connected.fieldIs reads_bool rfl ht true

/-- **A device is read from exactly the values that mean one.** -/
theorem reads_decode : Reads decode Means := by
  have hsound : ∀ {v d}, decode v = .ok d → Means v d := by
    intro v d h
    unfold decode at h
    cases hrec : record "struct DeviceConfig" fieldNames Draft.field {} v with
    | error e =>
      rw [hrec] at h
      cases h
    | ok draft =>
      obtain ⟨es, hes, ht⟩ := record_eq_ok_iff.mp hrec
      simp only [hrec, Bind.bind, Except.bind] at h
      split at h
      · cases h
      · rename_i name hname
        cases h
        exact ⟨es, hes, describes_of_taking ht hname⟩
  intro v d
  refine ⟨hsound, ?_⟩
  rintro ⟨es, hes, hd⟩
  obtain ⟨draft, ht⟩ := hd.exists_taking
  have hok : ∃ d', decode v = .ok d' := by
    unfold decode
    rw [record_eq_ok_iff.mpr ⟨es, hes, ht⟩]
    rcases isSlot_name.after_taking ht with ⟨-, -, -, -, name, -, hfull⟩ | ⟨hnone, -⟩
    · exact ⟨_, by simp only [Bind.bind, Except.bind, hfull]; rfl⟩
    · obtain ⟨e, he, hname, -⟩ := hd.name
      exact absurd hname (hnone e he)
  obtain ⟨d', hd'⟩ := hok
  obtain ⟨es', hes', hdes'⟩ := hsound hd'
  cases hes.unique hes'
  cases hd.unique hdes'
  exact hd'

theorem describes_iff (h : EntriesRearranged es gs) : Describes es d ↔ Describes gs d := by
  have hname : (∃ e ∈ es, IsName e.1 "name" ∧ MeansText e.2 d.name) ↔
      ∃ e ∈ gs, IsName e.1 "name" ∧ MeansText e.2 d.name :=
    exists_mem_iff h fun e e' hk hv => and_congr (isName_iff hk) (isOrderless_text _ _ _ hv)
  have hreject := isOrderless_list isOrderless_text
  constructor
  · rintro ⟨hk, hn, hl, hr, hc⟩
    exact ⟨(wellKeyed_iff h).mp hk, hname.mp hn, (fieldIs_iff h isOrderless_natural).mp hl,
      (fieldIs_iff h hreject).mp hr, (fieldIs_iff h isOrderless_bool).mp hc⟩
  · rintro ⟨hk, hn, hl, hr, hc⟩
    exact ⟨(wellKeyed_iff h).mpr hk, hname.mpr hn, (fieldIs_iff h isOrderless_natural).mpr hl,
      (fieldIs_iff h hreject).mpr hr, (fieldIs_iff h isOrderless_bool).mpr hc⟩

theorem isOrderless_means : IsOrderless Means := by
  intro v w d h
  obtain ⟨hvw, hwv⟩ := hasEntries_iff h
  constructor
  · rintro ⟨es, hes, hd⟩
    obtain ⟨gs, hgs, hr⟩ := hvw es hes
    exact ⟨gs, hgs, (describes_iff hr).mp hd⟩
  · rintro ⟨gs, hgs, hd⟩
    obtain ⟨es, hes, hr⟩ := hwv gs hgs
    exact ⟨es, hes, (describes_iff hr).mpr hd⟩

end DeviceSettings

/-! ## 2. Settings -/

namespace Settings

/-- The entries describe the settings; what they omit is standard. -/
structure Describes (es : List (Value × Value)) (s : Settings) : Prop where
  keys : WellKeyed fieldNames es
  settle : FieldIs es "settle_delay_ms" MeansNatural 100 s.settle
  limit : FieldIs es "command_timeout_ms" MeansNatural 10000 s.limit
  logCapacity : FieldIs es "log_buffer_size" MeansNatural 1000 s.logCapacity
  mode : FieldIs es "mode" MeansMode .continuous s.mode
  devices : FieldIs es "devices" (MeansList DeviceSettings.Means) [] s.devices

variable {v w : Value} {es gs : List (Value × Value)} {s s' : Settings}

theorem Describes.unique (h : Describes es s) (h' : Describes es s') : s = s' := by
  have hs : s.settle = s'.settle := (h.settle).unique (reads_natural "u64") h.keys h'.settle
  have hl : s.limit = s'.limit := (h.limit).unique (reads_natural "u64") h.keys h'.limit
  have hc : s.logCapacity = s'.logCapacity :=
    (h.logCapacity).unique (reads_natural "usize") h.keys h'.logCapacity
  have hm : s.mode = s'.mode := (h.mode).unique reads_mode h.keys h'.mode
  have hd : s.devices = s'.devices :=
    (h.devices).unique (reads_list DeviceSettings.reads_decode) h.keys h'.devices
  cases s
  cases s'
  cases hs
  cases hl
  cases hc
  cases hm
  cases hd
  rfl

/-- All fields but the one of this name are as they were. -/
structure Draft.KeepsOthers (d d' : Draft) (n : String) : Prop where
  settle : n ≠ "settle_delay_ms" → d'.settle = d.settle
  limit : n ≠ "command_timeout_ms" → d'.limit = d.limit
  logCapacity : n ≠ "log_buffer_size" → d'.logCapacity = d.logCapacity
  mode : n ≠ "mode" → d'.mode = d.mode
  devices : n ≠ "devices" → d'.devices = d.devices

/-- Taking in a field leaves the others as they were. -/
theorem Draft.keepsOthers {d d' : Draft} {n : String} {v : Value} (hn : n ∈ fieldNames)
    (h : d.field n v = .ok d') : d.KeepsOthers d' n := by
  simp only [fieldNames, List.mem_cons, List.not_mem_nil, or_false] at hn
  rcases hn with rfl | rfl | rfl | rfl | rfl <;> obtain ⟨a, rfl⟩ := exists_of_pure_eq_ok h
  · exact ⟨absurd rfl, fun _ => rfl, fun _ => rfl, fun _ => rfl, fun _ => rfl⟩
  · exact ⟨fun _ => rfl, absurd rfl, fun _ => rfl, fun _ => rfl, fun _ => rfl⟩
  · exact ⟨fun _ => rfl, fun _ => rfl, absurd rfl, fun _ => rfl, fun _ => rfl⟩
  · exact ⟨fun _ => rfl, fun _ => rfl, fun _ => rfl, absurd rfl, fun _ => rfl⟩
  · exact ⟨fun _ => rfl, fun _ => rfl, fun _ => rfl, fun _ => rfl, absurd rfl⟩

theorem isSlot_settle :
    IsSlot fieldNames Draft.field "settle_delay_ms" Draft.settle (natural "u64") :=
  .of_fill (fun d a => { d with settle := a }) (fun _ _ => rfl) (fun _ _ => rfl)
    fun hn hne h => (Draft.keepsOthers hn h).settle hne

theorem isSlot_limit :
    IsSlot fieldNames Draft.field "command_timeout_ms" Draft.limit (natural "u64") :=
  .of_fill (fun d a => { d with limit := a }) (fun _ _ => rfl) (fun _ _ => rfl)
    fun hn hne h => (Draft.keepsOthers hn h).limit hne

theorem isSlot_logCapacity :
    IsSlot fieldNames Draft.field "log_buffer_size" Draft.logCapacity (natural "usize") :=
  .of_fill (fun d a => { d with logCapacity := a }) (fun _ _ => rfl) (fun _ _ => rfl)
    fun hn hne h => (Draft.keepsOthers hn h).logCapacity hne

theorem isSlot_mode : IsSlot fieldNames Draft.field "mode" Draft.mode Decoder.mode :=
  .of_fill (fun d a => { d with mode := a }) (fun _ _ => rfl) (fun _ _ => rfl)
    fun hn hne h => (Draft.keepsOthers hn h).mode hne

theorem isSlot_devices :
    IsSlot fieldNames Draft.field "devices" Draft.devices (list DeviceSettings.decode) :=
  .of_fill (fun d a => { d with devices := a }) (fun _ _ => rfl) (fun _ _ => rfl)
    fun hn hne h => (Draft.keepsOthers hn h).devices hne

theorem areSlots : AreSlots fieldNames Draft.field := by
  intro n hn
  simp only [fieldNames, List.mem_cons, List.not_mem_nil, or_false] at hn
  rcases hn with rfl | rfl | rfl | rfl | rfl
  · exact ⟨_, _, _, isSlot_settle⟩
  · exact ⟨_, _, _, isSlot_limit⟩
  · exact ⟨_, _, _, isSlot_logCapacity⟩
  · exact ⟨_, _, _, isSlot_mode⟩
  · exact ⟨_, _, _, isSlot_devices⟩

/-- Entries that describe settings can be taken in. -/
theorem Describes.exists_taking (h : Describes es s) :
    ∃ draft, taking fieldNames Draft.field {} es = .ok draft := by
  refine (exists_taking_iff areSlots).mpr ⟨h.keys, fun e he n hn => ?_⟩
  have hmem := h.keys.mem he hn
  simp only [fieldNames, List.mem_cons, List.not_mem_nil, or_false] at hmem
  have hdevices := reads_list DeviceSettings.reads_decode
  rcases hmem with rfl | rfl | rfl | rfl | rfl
  · exact isSlot_settle.exists_field (reads_natural _) rfl h.keys h.settle e he hn
  · exact isSlot_limit.exists_field (reads_natural _) rfl h.keys h.limit e he hn
  · exact isSlot_logCapacity.exists_field (reads_natural _) rfl h.keys h.logCapacity e he hn
  · exact isSlot_mode.exists_field reads_mode rfl h.keys h.mode e he hn
  · exact isSlot_devices.exists_field hdevices rfl h.keys h.devices e he hn

/-- **Settings are read from exactly the values that mean them.** -/
theorem reads_decode : Reads decode fun v s => ∃ es, HasEntries v es ∧ Describes es s := by
  have hsound : ∀ {v s}, decode v = .ok s → ∃ es, HasEntries v es ∧ Describes es s := by
    intro v s h
    unfold decode at h
    cases hrec : record "struct EngineConfig" fieldNames Draft.field {} v with
    | error e =>
      rw [hrec] at h
      cases h
    | ok draft =>
      obtain ⟨es, hes, ht⟩ := record_eq_ok_iff.mp hrec
      rw [hrec] at h
      cases h
      exact ⟨es, hes, ((exists_taking_iff areSlots).mp ⟨draft, ht⟩).1,
        isSlot_settle.fieldIs (reads_natural _) rfl ht 100,
        isSlot_limit.fieldIs (reads_natural _) rfl ht 10000,
        isSlot_logCapacity.fieldIs (reads_natural _) rfl ht 1000,
        isSlot_mode.fieldIs reads_mode rfl ht .continuous,
        isSlot_devices.fieldIs (reads_list DeviceSettings.reads_decode) rfl ht []⟩
  intro v s
  refine ⟨hsound, ?_⟩
  rintro ⟨es, hes, hs⟩
  obtain ⟨draft, ht⟩ := hs.exists_taking
  have hok : ∃ s', decode v = .ok s' := by
    unfold decode
    rw [record_eq_ok_iff.mpr ⟨es, hes, ht⟩]
    exact ⟨_, rfl⟩
  obtain ⟨s', hs'⟩ := hok
  obtain ⟨es', hes', hdes'⟩ := hsound hs'
  cases hes.unique hes'
  cases hs.unique hdes'
  exact hs'

theorem describes_iff (h : EntriesRearranged es gs) : Describes es s ↔ Describes gs s := by
  have hdevices := isOrderless_list DeviceSettings.isOrderless_means
  constructor
  · rintro ⟨hk, hs, hl, hc, hm, hd⟩
    exact ⟨(wellKeyed_iff h).mp hk, (fieldIs_iff h isOrderless_natural).mp hs,
      (fieldIs_iff h isOrderless_natural).mp hl, (fieldIs_iff h isOrderless_natural).mp hc,
      (fieldIs_iff h isOrderless_mode).mp hm, (fieldIs_iff h hdevices).mp hd⟩
  · rintro ⟨hk, hs, hl, hc, hm, hd⟩
    exact ⟨(wellKeyed_iff h).mpr hk, (fieldIs_iff h isOrderless_natural).mpr hs,
      (fieldIs_iff h isOrderless_natural).mpr hl, (fieldIs_iff h isOrderless_natural).mpr hc,
      (fieldIs_iff h isOrderless_mode).mpr hm, (fieldIs_iff h hdevices).mpr hd⟩

/-! ## 3. Sound settings -/

/-- The name is not empty and has neither a blank nor a point in it. -/
def IsAddressable (name : String) : Prop :=
  name ≠ "" ∧ (∀ c ∈ name.toList, Text.isBlank c = false) ∧ '.' ∉ name.toList

theorem isAddressable_iff {name : String} : IsAddressable name ↔ isDeviceName name = true :=
  isDeviceName_iff.symm

/-- The devices have names of their own that can be addressed. -/
structure HaveNames (ds : List DeviceSettings) : Prop where
  addressable : ∀ d ∈ ds, IsAddressable d.name
  apart : (ds.map (·.name)).Nodup

/-- The log keeps something, and the devices have names. -/
structure IsSound (s : Settings) : Prop where
  log : 1 ≤ s.logCapacity
  devices : HaveNames s.devices

theorem deviceFault?_nil_eq_none_iff {ds : List DeviceSettings} :
    deviceFault? [] ds = none ↔ HaveNames ds := by
  rw [deviceFault?_eq_none_iff]
  constructor
  · rintro ⟨hnames, hnodup⟩
    exact ⟨fun d hd => isAddressable_iff.mpr (hnames d hd).1, hnodup⟩
  · rintro ⟨hnames, hnodup⟩
    exact ⟨fun d hd => ⟨isAddressable_iff.mp (hnames d hd), List.not_mem_nil⟩, hnodup⟩

theorem isSound_iff : s.IsSound ↔ s.fault? = none := by
  unfold fault?
  constructor
  · rintro ⟨hlog, hdevices⟩
    rw [if_neg (by omega)]
    exact deviceFault?_nil_eq_none_iff.mpr hdevices
  · intro h
    split at h
    · cases h
    · rename_i hlog
      exact ⟨Nat.pos_of_ne_zero hlog, deviceFault?_nil_eq_none_iff.mp h⟩

/-- The names before a device are those seen at first, and those of the devices since. -/
theorem mem_cons_or_iff {x : DeviceSettings} {seen : List String} {before : List DeviceSettings}
    {name : String} :
    name ∈ x.name :: seen ∨ name ∈ before.map (·.name) ↔
      name ∈ seen ∨ name ∈ (x :: before).map (·.name) := by
  rw [List.map_cons, List.mem_cons, List.mem_cons, or_assoc, or_left_comm]

section Fault

variable {x : DeviceSettings} {ds : List DeviceSettings} {seen : List String}

theorem deviceFault?_cons_of_bad (hx : ¬ IsAddressable x.name) :
    deviceFault? seen (x :: ds) = some (.badName x.name) := by
  rw [isAddressable_iff] at hx
  rw [deviceFault?, if_pos (by simpa using hx)]

theorem deviceFault?_cons_of_seen (hx : IsAddressable x.name) (hseen : x.name ∈ seen) :
    deviceFault? seen (x :: ds) = some (.repeatedName x.name) := by
  rw [isAddressable_iff] at hx
  rw [deviceFault?, if_neg (by simpa using hx), if_pos (by simpa using hseen)]

/-- A device with a name of its own passes the question on. -/
theorem deviceFault?_cons_of_new (hx : IsAddressable x.name) (hnew : x.name ∉ seen) :
    deviceFault? seen (x :: ds) = deviceFault? (x.name :: seen) ds := by
  rw [isAddressable_iff] at hx
  rw [deviceFault?, if_neg (by simpa using hx), if_neg (by simpa using hnew)]

/-- A device without a fault has a name of its own. -/
theorem isAddressable_of_deviceFault?_cons (h : deviceFault? seen (x :: ds) = none) :
    IsAddressable x.name ∧ x.name ∉ seen := by
  obtain ⟨hname, hnew⟩ := (deviceFault?_eq_none_iff.mp h).1 x List.mem_cons_self
  exact ⟨isAddressable_iff.mpr hname, hnew⟩

/-- **The fault is that of the first device that has one**: a name that cannot be addressed, or that
of a device before. -/
theorem deviceFault?_eq_some_iff {f : SettingsFault} :
    deviceFault? seen ds = some f ↔
      ∃ before d after, ds = before ++ d :: after ∧ deviceFault? seen before = none ∧
        (¬ IsAddressable d.name ∧ f = .badName d.name ∨
          IsAddressable d.name ∧ (d.name ∈ seen ∨ d.name ∈ before.map (·.name)) ∧
            f = .repeatedName d.name) := by
  induction ds generalizing seen with
  | nil => simp [deviceFault?]
  | cons x ds ih =>
    constructor
    · intro h
      by_cases hx : IsAddressable x.name
      · by_cases hseen : x.name ∈ seen
        · cases (deviceFault?_cons_of_seen hx hseen).symm.trans h
          exact ⟨[], x, ds, rfl, rfl, .inr ⟨hx, .inl hseen, rfl⟩⟩
        · rw [deviceFault?_cons_of_new hx hseen] at h
          obtain ⟨before, d, after, rfl, hb, hf⟩ := ih.mp h
          refine ⟨x :: before, d, after, rfl, ?_, ?_⟩
          · rwa [deviceFault?_cons_of_new hx hseen]
          · rwa [mem_cons_or_iff] at hf
      · cases (deviceFault?_cons_of_bad hx).symm.trans h
        exact ⟨[], x, ds, rfl, rfl, .inl ⟨hx, rfl⟩⟩
    · rintro ⟨before, d, after, hds, hb, hf⟩
      cases before with
      | nil =>
        cases hds
        rcases hf with ⟨hbad, rfl⟩ | ⟨hgood, hseen | hseen, rfl⟩
        · exact deviceFault?_cons_of_bad hbad
        · exact deviceFault?_cons_of_seen hgood hseen
        · exact absurd hseen List.not_mem_nil
      | cons y before =>
        cases hds
        obtain ⟨hgood, hnew⟩ := isAddressable_of_deviceFault?_cons hb
        rw [deviceFault?_cons_of_new hgood hnew] at hb ⊢
        refine ih.mpr ⟨before, d, after, rfl, hb, ?_⟩
        rwa [mem_cons_or_iff]

end Fault

/-! ## 4. Whole numbers -/

/-- The numbers have at most 64 bits. -/
structure FitsWords (s : Settings) : Prop where
  settle : s.settle < Yaml.wordBound
  limit : s.limit < Yaml.wordBound
  logCapacity : s.logCapacity < Yaml.wordBound
  latency : ∀ d ∈ s.devices, d.latency < Yaml.wordBound

theorem fitsWords_untagged (h : v.FitsWords) : (untagged v).FitsWords := by
  induction v using untagged.induct with
  | case1 tag v ih =>
    cases h with
    | tagged _ h => exact ih h
  | case2 v hv => rwa [untagged.eq_2 v hv]

theorem lt_of_meansNatural {n : Nat} (h : v.FitsWords) (hn : MeansNatural v n) : n < Yaml.wordBound := by
  have hu := fitsWords_untagged h
  rw [hn] at hu
  cases hu with
  | int hfits =>
    obtain ⟨-, hlt⟩ := hfits
    omega

/-- A field that is a number fits if the standard does. -/
theorem lt_of_fieldIs {name : String} {standard n : Nat} (hv : ∀ e ∈ es, e.2.FitsWords)
    (hstandard : standard < Yaml.wordBound) (h : FieldIs es name MeansNatural standard n) :
    n < Yaml.wordBound := by
  rcases h with ⟨e, he, -, hn⟩ | ⟨-, rfl⟩
  · exact lt_of_meansNatural (hv e he) hn
  · exact hstandard

theorem entries_fitsWords (h : v.FitsWords) (hes : HasEntries v es) :
    ∀ e ∈ es, e.2.FitsWords := by
  have hu := fitsWords_untagged h
  rcases hes with hes | ⟨-, rfl⟩
  · rw [hes] at hu
    cases hu with
    | mapping _ hv => exact hv
  · exact List.forall_mem_nil _

/-- **What is read from numbers that fit holds numbers that fit.** -/
theorem Describes.fitsWords (h : Describes es s) (hv : ∀ e ∈ es, e.2.FitsWords) :
    s.FitsWords where
  settle := lt_of_fieldIs hv (by decide) h.settle
  limit := lt_of_fieldIs hv (by decide) h.limit
  logCapacity := lt_of_fieldIs hv (by decide) h.logCapacity
  latency := by
    rcases h.devices with ⟨e, he, -, ⟨vs, hvs, hds⟩ | ⟨-, hnil⟩⟩ | ⟨-, hnil⟩
    · intro d hd
      have hu := fitsWords_untagged (hv e he)
      rw [hvs] at hu
      cases hu with
      | sequence hitems =>
        obtain ⟨u, hu, gs, hgs, hdes⟩ := exists_of_forall₂ hds hd
        exact lt_of_fieldIs (entries_fitsWords (hitems u hu) hgs) (by decide) hdes.latency
    · rw [hnil]
      exact List.forall_mem_nil _
    · rw [hnil]
      exact List.forall_mem_nil _

/-! ## 5. Acceptance -/

/-- What a value that is taken for settings at all describes. -/
def Means (v : Value) (s : Settings) : Prop :=
  v = .null ∧ s = {} ∨ ∃ es, v = .mapping es ∧ Describes es s

theorem ofValue?_of_means (h : Means v s) :
    ofValue? v = match s.fault? with
      | some f => .error (.fault f)
      | none => .ok s := by
  rcases h with ⟨rfl, rfl⟩ | ⟨es, rfl, hdes⟩
  · rfl
  · have hdecode : decode (.mapping es) = .ok s := (reads_decode _ _).mpr ⟨es, .inl rfl, hdes⟩
    unfold ofValue?
    rw [hdecode]
    rfl

theorem means_of_ofValue? (h : ofValue? v = .ok s) : Means v s := by
  have hfault : ∀ s' : Settings, (match s'.fault? with
      | some f => Except.error (ConfigError.fault f)
      | none => Except.ok s') = Except.ok s → s' = s := by
    intro s' h
    split at h
    · cases h
    · exact Except.ok.inj h
  unfold ofValue? at h
  cases v with
  | null => exact .inl ⟨rfl, (hfault {} h).symm⟩
  | mapping es =>
    cases hd : decode (.mapping es) with
    | error e =>
      rw [hd] at h
      cases h
    | ok s' =>
      rw [hd] at h
      obtain rfl := hfault s' h
      obtain ⟨es', hes', hdes⟩ := (reads_decode _ _).mp hd
      cases HasEntries.unique (.inl rfl) hes'
      exact .inr ⟨es, rfl, hdes⟩
  | _ => cases h

theorem means_iff (h : Rearranged v w) : Means v s ↔ Means w s := by
  unfold Means
  cases h with
  | same => rfl
  | mapping hp hk hv => simp [describes_iff (entriesRearranged_of_forall₂ hp hk hv)]
  | _ => simp

/-- **Settings are accepted** exactly when they are meant and sound. -/
theorem ofValue?_eq_ok_iff : ofValue? v = .ok s ↔ Means v s ∧ s.IsSound := by
  constructor
  · intro h
    have hmeans := means_of_ofValue? h
    rw [ofValue?_of_means hmeans] at h
    refine ⟨hmeans, isSound_iff.mpr ?_⟩
    split at h
    · cases h
    · assumption
  · rintro ⟨hmeans, hsound⟩
    rw [ofValue?_of_means hmeans, isSound_iff.mp hsound]

theorem fitsWords_of_ofValue? (hv : v.FitsWords) (h : ofValue? v = .ok s) : s.FitsWords := by
  rcases means_of_ofValue? h with ⟨rfl, rfl⟩ | ⟨es, rfl, hdes⟩
  · exact ⟨by decide, by decide, by decide, List.forall_mem_nil _⟩
  · exact hdes.fitsWords (entries_fitsWords hv (.inl rfl))

/-- **Which values are settings.**  A value is accepted, as the settings that it means, exactly when
there are such and they are sound; the order of entries does not matter for that; if only the devices
are unsound, the error names the first device that cannot be addressed or has the name of one before;
and numbers that fit are read as numbers that fit. -/
theorem settings_of_value (v : Value) :
    (∀ s, ofValue? v = .ok s ↔ Means v s ∧ s.IsSound) ∧
      (∀ w, Rearranged v w → ∀ s, ofValue? v = .ok s ↔ ofValue? w = .ok s) ∧
      (∀ s, Means v s → 1 ≤ s.logCapacity → ¬ HaveNames s.devices →
        ∃ before d after, s.devices = before ++ d :: after ∧ HaveNames before ∧
          (¬ IsAddressable d.name ∧ ofValue? v = .error (.fault (.badName d.name)) ∨
            IsAddressable d.name ∧ d.name ∈ before.map (·.name) ∧
              ofValue? v = .error (.fault (.repeatedName d.name)))) ∧
      (v.FitsWords → ∀ s, ofValue? v = .ok s → s.FitsWords) := by
  refine ⟨fun s => ofValue?_eq_ok_iff, fun w h s => ?_, fun s hmeans hlog hnames => ?_,
    fun hv s => fitsWords_of_ofValue? hv⟩
  · rw [ofValue?_eq_ok_iff, ofValue?_eq_ok_iff, means_iff h]
  · cases hf : deviceFault? [] s.devices with
    | none => exact absurd (deviceFault?_nil_eq_none_iff.mp hf) hnames
    | some f =>
      have herror : ofValue? v = .error (.fault f) := by
        have hfault : s.fault? = some f := by
          unfold fault?
          rw [if_neg (by omega), hf]
        rw [ofValue?_of_means hmeans, hfault]
      obtain ⟨before, d, after, hds, hbefore, hd⟩ := deviceFault?_eq_some_iff.mp hf
      refine ⟨before, d, after, hds, deviceFault?_nil_eq_none_iff.mp hbefore, ?_⟩
      rcases hd with ⟨hbad, rfl⟩ | ⟨hgood, hseen | hmem, rfl⟩
      · exact .inl ⟨hbad, herror⟩
      · cases hseen
      · exact .inr ⟨hgood, hmem, herror⟩

/-- Two devices and a delay. -/
def twoDevices : Value :=
  .mapping [(.text "devices", .sequence [
      .mapping [(.text "name", .text "alpha"), (.text "latency_ms", .int 40)],
      .mapping [(.text "name", .text "beta"), (.text "reject", .null)]]),
    (.text "settle_delay_ms", .int 5)]

/-- The same with other orders of the entries. -/
def twoDevicesTurned : Value :=
  .mapping [(.text "settle_delay_ms", .int 5),
    (.text "devices", .sequence [
      .mapping [(.text "latency_ms", .int 40), (.text "name", .text "alpha")],
      .mapping [(.text "reject", .null), (.text "name", .text "beta")]])]

/-- A device that is listed twice. -/
def listedTwice : Value :=
  .mapping [(.text "devices", .sequence [.mapping [(.text "name", .text "alpha")],
    .mapping [(.text "name", .text "alpha")]])]

/-- What the two devices and the delay are read as. -/
def ofTwoDevices : Settings where
  settle := 5
  devices := [{ name := "alpha", latency := 40 }, { name := "beta" }]

/-- The order does not matter, and the device that is listed again is the fault. -/
theorem settings_of_twoDevices :
    Rearranged twoDevices twoDevicesTurned ∧ twoDevices.FitsWords ∧
      ofValue? twoDevicesTurned = .ok ofTwoDevices ∧ ofTwoDevices.FitsWords ∧
      ofValue? listedTwice = .error (.fault (.repeatedName "alpha")) := by
  have hturned : Rearranged twoDevices twoDevicesTurned := by
    have hsame : ∀ vs : List Value, List.Forall₂ Rearranged vs vs := fun vs =>
      List.forall₂_same.mpr fun v _ => .same v
    have halpha : Rearranged
        (.mapping [(.text "name", .text "alpha"), (.text "latency_ms", .int 40)])
        (.mapping [(.text "latency_ms", .int 40), (.text "name", .text "alpha")]) :=
      .mapping (List.Perm.swap _ _ _) (hsame _) (hsame _)
    have hbeta : Rearranged (.mapping [(.text "name", .text "beta"), (.text "reject", .null)])
        (.mapping [(.text "reject", .null), (.text "name", .text "beta")]) :=
      .mapping (List.Perm.swap _ _ _) (hsame _) (hsame _)
    exact .mapping (List.Perm.swap _ _ _) (hsame _)
      (.cons (.same _) (.cons (.sequence (.cons halpha (.cons hbeta .nil))) .nil))
  have hfits : twoDevices.FitsWords := by
    have hpair : ∀ {k v k' v' : Value}, k.FitsWords → v.FitsWords → k'.FitsWords → v'.FitsWords →
        (Value.mapping [(k, v), (k', v')]).FitsWords := fun hk hv hk' hv' =>
      .mapping (by simp [hk, hk']) (by simp [hv, hv'])
    refine hpair (.text _) (.sequence ?_) (.text _) (.int ⟨by decide, by decide⟩)
    exact List.forall_mem_cons.mpr ⟨hpair (.text _) (.text _) (.text _) (.int ⟨by decide, by decide⟩),
      List.forall_mem_singleton.mpr (hpair (.text _) (.text _) (.text _) .null)⟩
  have hok : ofValue? twoDevices = .ok ofTwoDevices := rfl
  obtain ⟨-, horder, -, hrange⟩ := settings_of_value twoDevices
  obtain ⟨-, -, hfault, -⟩ := settings_of_value listedTwice
  have hdecode : decode listedTwice = .ok
      { devices := [{ name := "alpha" }, { name := "alpha" }] } := rfl
  obtain ⟨es, hes, hdes⟩ := (reads_decode _ _).mp hdecode
  cases HasEntries.unique (.inl rfl) hes
  have hnames : ¬ HaveNames [{ name := "alpha" }, { name := "alpha" }] := fun h => by
    simpa using h.apart
  obtain ⟨before, d, after, hds, -, hd⟩ := hfault _ (.inr ⟨_, rfl, hdes⟩) (by decide) hnames
  have hmem : d ∈ before ++ d :: after := by simp
  rw [← hds] at hmem
  have hname : d = { name := "alpha" } := by simpa using hmem
  refine ⟨hturned, hfits, (horder _ hturned _).mp hok, hrange hfits _ hok, ?_⟩
  subst hname
  rcases hd with ⟨hbad, -⟩ | ⟨-, -, herror⟩
  · exact absurd (isAddressable_iff.mpr (by decide)) hbad
  · exact herror

/-- A key with a tag names a setting without being its name. -/
theorem exists_tagged_setting :
    ∃ es s, ofValue? (.mapping es) = .ok s ∧ s.settle = 5 ∧
      ∃ e ∈ es, ∀ name ∈ fieldNames, e.1 ≠ .text name :=
  ⟨[(.tagged "a" (.text "settle_delay_ms"), .int 5)], { settle := 5 }, rfl, rfl, _,
    List.mem_singleton.mpr rfl, nofun⟩

end Settings

/-! ## 6. Settings from files -/

namespace Loader

variable {l : Loader} {load : Path → Except ConfigError Value} {origin : Path} {v w : Value}

theorem fitsWords_variableValue (raw : String) : (variableValue raw).FitsWords := by
  unfold variableValue
  cases hr : Yaml.read? raw with
  | none => exact .text raw
  | some v => exact Yaml.fitsWords_of_read? hr

/-- What is put in place of a tagged value fits if what is in files does. -/
theorem fitsWords_of_replacement {tag : String} (hload : ∀ p w, load p = .ok w → w.FitsWords)
    (h : l.replacement load origin tag v = .ok w) : w.FitsWords := by
  unfold replacement at h
  split at h
  · split at h
    · exact hload _ _ h
    · cases h
  · split at h
    · split at h
      · split at h
        · cases h
          exact fitsWords_variableValue _
        · cases h
      · cases h
    · cases h

theorem fitsWords_of_resolve (hload : ∀ p w, load p = .ok w → w.FitsWords) (hv : v.FitsWords)
    (h : l.resolve load origin v = .ok w) : w.FitsWords := by
  induction hv generalizing w with
  | null | bool | float | text =>
    cases h
    constructor
  | int hn =>
    cases h
    exact .int hn
  | sequence _ ih =>
    rw [resolve, resolveItems_eq_mapM] at h
    obtain ⟨ws, hws, rfl⟩ := exists_of_map_eq_ok h
    refine .sequence fun w hw => ?_
    obtain ⟨v, hv, hvw⟩ := exists_of_forall₂ (mapM_eq_ok_iff.mp hws) hw
    exact ih v hv hvw
  | mapping hk _ _ ih =>
    rw [resolve, resolveEntries_eq_mapM] at h
    obtain ⟨ws, hws, rfl⟩ := exists_of_map_eq_ok h
    have hentries : ∀ e ∈ ws, e.1.FitsWords ∧ e.2.FitsWords := by
      intro e' he'
      obtain ⟨e, he, hee'⟩ := exists_of_forall₂ (mapM_eq_ok_iff.mp hws) he'
      obtain ⟨u, hu, rfl⟩ := exists_of_map_eq_ok hee'
      exact ⟨hk e he, ih e he hu⟩
    exact .mapping (fun e he => (hentries e he).1) fun e he => (hentries e he).2
  | tagged => exact fitsWords_of_replacement hload h

theorem fitsWords_of_loadWithin {depth : Nat} {chain : List Path} {p : Path}
    (h : l.loadWithin depth chain p = .ok w) : w.FitsWords := by
  induction depth generalizing chain p w with
  | zero => cases h
  | succ depth ih =>
    unfold loadWithin at h
    simp only at h
    split at h
    · cases h
    · split at h
      · cases h
      · unfold loadText at h
        split at h
        · rename_i hread
          exact fitsWords_of_resolve (fun p w => ih) (Yaml.fitsWords_of_read? hread) h
        · cases h

end Loader

/-- **The numbers of settings that were loaded have at most 64 bits.** -/
theorem Settings.fitsWords_of_load {w : Surroundings} {path : Path} {s : Settings}
    (h : Settings.load w path = .ok s) : s.FitsWords := by
  unfold Settings.load at h
  cases hv : Loader.load ⟨w, (Path.parent? path).getD "."⟩ path with
  | error e =>
    rw [hv] at h
    cases h
  | ok v =>
    rw [hv] at h
    exact fitsWords_of_ofValue? (Loader.fitsWords_of_loadWithin hv) h

end DeviceScript
