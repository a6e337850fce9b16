import DeviceScript.Check
import DeviceScript.Proofs.Config.Settings
import DeviceScript.Proofs.Course.Commands
import DeviceScript.Proofs.Course.Log
import DeviceScript.Proofs.Course.Served
import DeviceScript.Proofs.Device.Simulated
import DeviceScript.Proofs.Instruction
import Mathlib.Data.List.Nodup
/-!
# What a check promises about a run

A check counts the lines of a script that are sure to make trouble.  Here its judgement is compared
with what a run logs when one registry is its directory and its gateway.

* A script without such lines, on devices that acknowledge everything, has one run, and it
  completes (`exists_run_of_no_problems`).  The run logs a warning for every delay of 2^64 seconds
  or more, for these have no length but are not counted, and no other warning or error.
* A line that is counted does make trouble when it is run with the devices of sound settings
  (`alarm_of_problem_iff`), with one exception: a command without a command word that has
  arguments.  What is handed over for it is not blank, so that a device takes the first argument
  for the command.
-/

namespace DeviceScript

open Course Text

/-! ## 1. Delays without a length -/

namespace Instruction

/-- A delay of 2^64 seconds or more. -/
def isOverlong : Instruction → Bool
  | .wait (some (.finite _ m q)) => 0 ≤ q && Nat.pow 2 64 ≤ m * Nat.pow 2 q.toNat
  | _ => false

/-- Of the delays that are understood, those of 2^64 seconds or more have no length. -/
theorem delayNanos?_eq_none_iff {x : Decimal.Double} (hx : x.isDuration = true) :
    delayNanos? x = none ↔ isOverlong (.wait (some x)) = true := by
  cases x with
  | finite negative m q => simp [delayNanos?, isOverlong]
  | infinite | nan => cases hx

end Instruction

/-- A script without problems has no line that is one. -/
theorem Report.problems_eq_zero_iff {s : Script} :
    (ofScript s).problems = 0 ↔ ∀ x ∈ s.instructions, x.2.isProblem = false := by
  simp [ofScript, List.filter_eq_nil_iff]

/-! ## 2. A script without problems -/

/-- The device is connected and acknowledges every command at once. -/
def Registry.AcknowledgesAtOnce (r : Registry) (name : String) : Prop :=
  ∃ d, r.devices.find? name = some d ∧ d.connected = true ∧ ∀ command, ∃ reply : Reply,
    reply.success = true ∧ d.handler ⟨name, command⟩ = .after 0 (.replied reply)

/-- A line at which nothing can go wrong but a delay without a length. -/
def Registry.Serves (r : Registry) : Instruction → Prop
  | .blank | .comment => True
  | .wait seconds => ∃ x, seconds = some x ∧ x.isDuration = true
  | .command c => r.AcknowledgesAtOnce c.device ∧ allBlank c.payload.toList = false
  | .unrecognized .. => False

variable {r : Registry} {p : Plan} {last : Option Nat} {line : Nat} {i : Instruction}

/-- A line that is no problem is one at which nothing can go wrong. -/
theorem serves_of_isProblem {l : String} (hi : i = .classify l) (hp : i.isProblem = false)
    (hr : ∀ c, i = .command c → r.AcknowledgesAtOnce c.device) : r.Serves i := by
  cases i with
  | blank | comment => trivial
  | wait seconds =>
    cases seconds with
    | none => cases hp
    | some x => exact ⟨x, rfl, Instruction.isDuration_of_classify hi.symm⟩
  | command c =>
    refine ⟨hr c rfl, ?_⟩
    have hc : c.command ≠ "" := by
      intro h
      simp [Instruction.isProblem, h] at hp
    obtain ⟨hv, ha⟩ := Instruction.parts_of_classify hi.symm
    rw [← Bool.not_eq_true, DeviceCommand.allBlank_payload_iff hv ha]
    exact fun h => hc h.1
  | unrecognized raw reason => cases hp

/-- Undisturbed moves lead from the course `c` to `c'` and raise the alarms `es`. -/
def LeadsOn (r : Registry) (c : Course) (es : List Log.Entry) (c' : Course) : Prop :=
  ∃ ms, Trace c ms c' ∧ Undisturbed r ms ∧ alarmsOf ms = es

namespace LeadsOn

variable {c c' c₁ c₂ c₃ : Course} {m : Move} {es es₁ es₂ : List Log.Entry}

theorem refl (c : Course) : LeadsOn r c [] c :=
  ⟨[], .nil c, nofun, rfl⟩

theorem trans (h₁ : LeadsOn r c₁ es₁ c₂) (h₂ : LeadsOn r c₂ es₂ c₃) :
    LeadsOn r c₁ (es₁ ++ es₂) c₃ := by
  obtain ⟨ms₁, ht₁, hu₁, he₁⟩ := h₁
  obtain ⟨ms₂, ht₂, hu₂, he₂⟩ := h₂
  exact ⟨ms₁ ++ ms₂, ht₁.append ht₂, hu₁.append hu₂, by rw [alarmsOf_append, he₁, he₂]⟩

/-- A single move. -/
theorem move (hm : Moves c₁ m c₂) (hs : m.IsServedBy r ∧ m.IsUndisturbed)
    (he : alarmsOf [m] = es) : LeadsOn r c₁ es c₂ :=
  ⟨[m], .cons hm (.nil _), fun _ h => List.mem_singleton.mp h ▸ hs, he⟩

/-- A move that raises no alarm, before what else happens. -/
theorem quiet (hm : Moves c₁ m c₂) (hs : m.IsServedBy r ∧ m.IsUndisturbed)
    (he : alarmsOf [m] = []) (h : LeadsOn r c₂ es c₃) : LeadsOn r c₁ es c₃ :=
  (move hm hs he).trans h

/-- Telling something that is no alarm. -/
theorem tell {n : Notice} {next : Course} (he : alarmsOf [.told n] = [])
    (h : LeadsOn r next es c') : LeadsOn r (.tell n next) es c' :=
  quiet .tell ⟨trivial, trivial⟩ he h

/-- A question for a stop. -/
theorem askStop {next : Bool → Course} (h : LeadsOn r (next false) es c') :
    LeadsOn r (.askStop next) es c' :=
  quiet (.askStop false) ⟨trivial, rfl⟩ rfl h

/-- A move to a line leaves the state alone. -/
theorem moveTo {t : Tracker} {target : Option Nat} {next : Tracker → Course}
    (h : LeadsOn r (next { t with cursor := target }) es c') :
    LeadsOn r (t.moveTo target next) es c' := by
  unfold Tracker.moveTo
  split
  · rename_i ht
    rwa [← ht] at h
  · exact tell rfl h

/-- An undisturbed rest goes on. -/
theorem rest {nanos : Nat} {next : Step → Course} (h : LeadsOn r (next .goOn) es c') :
    LeadsOn r (restUnlessStopped nanos next) es c' := by
  unfold restUnlessStopped
  split
  · exact askStop h
  · exact quiet (.rest .due) ⟨trivial, rfl⟩ rfl h

end LeadsOn

/-- A command for a device that acknowledges it is answered at once. -/
theorem handle_of_acknowledgesAtOnce {c : DeviceCommand} (h : r.AcknowledgesAtOnce c.device)
    (hp : allBlank c.payload.toList = false) (limit : Option Nat) :
    ∃ reply : Reply, reply.success = true ∧
      (r.handle ⟨c.device, c.payload⟩).limited limit = (some 0, some (.replied reply)) := by
  obtain ⟨d, hd, hc, hack⟩ := h
  obtain ⟨reply, hs, hr⟩ := hack c.payload
  refine ⟨reply, hs, ?_⟩
  rw [Registry.handle_of_connected ⟨c.device, c.payload⟩ hd hc hp, hr]
  cases limit <;> simp [Handling.limited]

/-- **An undisturbed run gets past a line at which nothing can go wrong**, and warns there only of a
delay without a length. -/
theorem leadsOn_perform {c' : Course} {es : List Log.Entry} {next : Step → Course}
    (hi : r.Serves i) (h : LeadsOn r (next .goOn) es c') :
    LeadsOn r (p.perform line i next)
      ((if i.isOverlong = true then [p.malformedEntry line] else []) ++ es) c' := by
  cases i with
  | blank | comment => exact h
  | wait seconds =>
    obtain ⟨x, rfl, hx⟩ := hi
    have hnone := Instruction.delayNanos?_eq_none_iff hx
    simp only [Plan.perform, Option.bind_some]
    cases hd : delayNanos? x with
    | none =>
      rw [if_pos (hnone.mp hd)]
      exact (LeadsOn.move .tell ⟨trivial, trivial⟩ rfl).trans h
    | some nanos =>
      rw [if_neg (fun hl => by rw [hnone.mpr hl] at hd; cases hd)]
      exact .rest h
  | command c =>
    obtain ⟨hack, hp⟩ := hi
    obtain ⟨reply, hs, hh⟩ := handle_of_acknowledgesAtOnce hack hp p.timing.limit
    have hconnected : r.isConnected c.device = true := by
      obtain ⟨d, hd, hc, -⟩ := hack
      exact Registry.isConnected_iff.mpr ⟨d, hd, hc⟩
    have hresult : alarmsOf
        [.told (.log (resultEntry c line p.timing.limit (some (.replied reply))))] = [] := by
      refine List.filter_cons_of_neg ?_
      rw [isAlarm_resultEntry, failureReason?_eq_none_iff.mpr ⟨reply, rfl, hs⟩]
      exact Bool.false_ne_true
    refine .quiet (.askDevice true) ⟨hconnected.symm, trivial⟩ rfl ?_
    refine .tell rfl ?_
    refine .quiet (.call (some (.replied reply))) ⟨⟨0, hh⟩, trivial⟩ rfl ?_
    exact .tell hresult (.rest h)
  | unrecognized raw reason => cases hi

/-- **An undisturbed run takes all lines and completes.**  By induction on the lines; in continuous
mode there is no pause between them. -/
theorem leadsOn_lines (hmode : p.mode = .continuous) :
    ∀ {items : List (Nat × Instruction)} {t : Tracker}, t.state = .running →
      (∀ x ∈ items, r.Serves x.2) →
      LeadsOn r (p.lines last items t)
        ((items.filter (·.2.isOverlong)).map fun x => p.malformedEntry x.1) (.ended (.ok .completed))
  | [], t, hs, _ => by
    rw [Plan.lines, Tracker.conclude, Tracker.enter_eq (by rw [hs]; rfl)]
    exact .tell rfl (.tell rfl (.moveTo (.refl _)))
  | (line, i) :: more, t, hs, hi => by
    obtain ⟨hserves, hmore⟩ := List.forall_mem_cons.mp hi
    have hpause : p.pausesAfter last line = false := by
      simp [Plan.pausesAfter, hmode]
    rw [Plan.lines]
    refine .askStop ?_
    rw [if_neg Bool.false_ne_true]
    cases hx : i.isExecutable with
    | false =>
      have hshort : i.isOverlong = false := by
        cases i with
        | blank | comment => rfl
        | wait | command | unrecognized => cases hx
      rw [List.filter_cons_of_neg (by simp [hshort]), if_pos Bool.not_false]
      exact leadsOn_lines hmode hs hmore
    | true =>
      have hcons : (((line, i) :: more).filter (·.2.isOverlong)).map (fun x => p.malformedEntry x.1) =
          (if i.isOverlong = true then [p.malformedEntry line] else []) ++
            (more.filter (·.2.isOverlong)).map fun x => p.malformedEntry x.1 := by
        rw [List.filter_cons]
        split <;> rfl
      rw [hcons, if_neg (by simp)]
      refine .moveTo ?_
      refine leadsOn_perform hserves ?_
      simp only [hpause, Bool.false_eq_true, if_false]
      exact leadsOn_lines hmode hs hmore

/-- **A run of a script without problems.**  The devices that the script commands are connected and
acknowledge every command at once; some device is connected, which matters to a script that
commands none.  Undisturbed, the script has one run in continuous mode: it completes, and whatever
happens on the way is the beginning of it.  The alarms of the run are one warning for each delay of
2^64 seconds or more, in the order of the script. -/
theorem exists_run_of_no_problems {s : Script} {timing : Timing} {r : Registry}
    (hcheck : (Report.ofScript s).problems = 0) (hany : r.hasAny = true)
    (hdevices : ∀ x ∈ s.commands, r.AcknowledgesAtOnce x.2.device) :
    ∃ ms, Trace (Plan.course ⟨s, .continuous, timing⟩) ms (.ended (.ok .completed)) ∧
      Undisturbed r ms ∧
      (∀ ms' c', Trace (Plan.course ⟨s, .continuous, timing⟩) ms' c' → Undisturbed r ms' →
        ms' <+: ms) ∧
      alarmsOf ms = (s.instructions.filter (·.2.isOverlong)).map
        fun x => Plan.malformedEntry ⟨s, .continuous, timing⟩ x.1 := by
  have hserves : ∀ x ∈ s.instructions, r.Serves x.2 := by
    intro x hx
    obtain ⟨l, -, hl⟩ := Script.exists_line_of_mem hx
    refine serves_of_isProblem hl (Report.problems_eq_zero_iff.mp hcheck x hx) ?_
    intro c hc
    exact hdevices (x.1, c) (List.mem_filterMap.mpr ⟨x, hx, by rw [hc]; rfl⟩)
  have hrun : LeadsOn r (Plan.course ⟨s, .continuous, timing⟩)
      ((s.instructions.filter (·.2.isOverlong)).map
        fun x => Plan.malformedEntry ⟨s, .continuous, timing⟩ x.1) (.ended (.ok .completed)) := by
    refine .quiet (.askAny true) ⟨hany.symm, trivial⟩ rfl ?_
    refine .tell rfl ?_
    rw [Tracker.enter_eq rfl]
    exact .tell rfl (.tell rfl (leadsOn_lines rfl rfl hserves))
  obtain ⟨ms, ht, hu, ha⟩ := hrun
  exact ⟨ms, ht, hu, fun ms' c' ht' hu' => ht.isPrefix hu ht' hu', ha⟩

/-- A registry with one device, which acknowledges everything at once. -/
def aloneRegistry : Registry := Simulated.register {} .empty "alpha"

/-- A plan for a script without problems, of whose delays one has no length. -/
def overlongPlan : Plan where
  script := ⟨none, ["alpha.home", "wait 1e30"]⟩

theorem exists_run_of_overlongPlan :
    (Report.ofScript overlongPlan.script).problems = 0 ∧ ∃ ms,
      Trace overlongPlan.course ms (.ended (.ok .completed)) ∧ Undisturbed aloneRegistry ms ∧
      alarmsOf ms = [overlongPlan.malformedEntry 1] := by
  have hcheck : (Report.ofScript overlongPlan.script).problems = 0 := by decide
  have hack : aloneRegistry.AcknowledgesAtOnce "alpha" := ⟨_, rfl, rfl, fun _ => ⟨.ok, rfl, rfl⟩⟩
  have hcommands : overlongPlan.script.commands = [(0, ⟨"alpha", "home", ""⟩)] := by decide
  obtain ⟨ms, ht, hu, -, ha⟩ := @exists_run_of_no_problems _ {} aloneRegistry hcheck rfl
    (by simpa [hcommands] using hack)
  refine ⟨hcheck, ms, ht, hu, ha.trans ?_⟩
  decide

/-- The one run of that plan. -/
def overlongMoves : List Move :=
  overlongPlan.openingMoves ++
    [.foundStop false, .told (.cursor (some 0)), .foundDevice "alpha" true,
      .told (.log (sentEntry ⟨"alpha", "home", ""⟩ 0)),
      .called ⟨"alpha", "home"⟩ (some 10000) (some (.replied .ok)),
      .told (.log (resultEntry ⟨"alpha", "home", ""⟩ 0 (some 10000) (some (.replied .ok)))),
      .rested 100000000 .due, .foundStop false, .told (.cursor (some 1)),
      .told (.log (overlongPlan.malformedEntry 1))] ++
    closingMoves (some 1) .completed

/-- **A script without problems whose run warns.**  A delay of 1e30 seconds is understood, so that
it is not counted, and has no length, so that the run warns of it. -/
theorem exists_alarm_without_problems :
    ∃ (s : Script) (timing : Timing) (r : Registry) (ms : List Move),
      (Report.ofScript s).problems = 0 ∧ r.hasAny = true ∧
      (∀ x ∈ s.commands, r.AcknowledgesAtOnce x.2.device) ∧
      Trace (Plan.course ⟨s, .continuous, timing⟩) ms (.ended (.ok .completed)) ∧
      Undisturbed r ms ∧ alarmsOf ms ≠ [] := by
  have hack : aloneRegistry.AcknowledgesAtOnce "alpha" := ⟨_, rfl, rfl, fun _ => ⟨.ok, rfl, rfl⟩⟩
  have hcommands : overlongPlan.script.commands = [(0, ⟨"alpha", "home", ""⟩)] := by decide
  refine ⟨overlongPlan.script, {}, aloneRegistry, overlongMoves, by decide, rfl, ?_,
    trace_of_resultAfter? (by decide), by decide, by decide⟩
  simpa [hcommands] using hack

/-! ## 3. A problem that is run -/

/-- A device takes the first argument of a command without a command word for the command, and
acknowledges it in time. -/
def Registry.TakesArgument (r : Registry) (limit : Option Nat) (c : DeviceCommand) : Prop :=
  c.command = "" ∧ c.args ≠ "" ∧ ∃ sim : Simulated,
    r.devices.find? c.device = some ⟨sim.handler, .simulated, true⟩ ∧
    Simulated.commandName c.args ∉ sim.reject ∧ ∀ most, limit = some most → sim.latency ≤ most

/-- A call that ends in time is one whose result is there. -/
theorem Handling.limited_after {t : Nat} {result : CallResult} {limit : Option Nat} :
    ((Handling.after t result).limited limit).2 =
      if ∀ most, limit = some most → t ≤ most then some result else none := by
  cases limit with
  | none => simp [limited]
  | some most => simp only [limited]; split <;> simp [*]

/-- **A command without a command word** is acknowledged by a connected device only when the device
takes the first argument for it. -/
theorem acknowledged_iff_takesArgument {c : DeviceCommand} {limit : Option Nat} {sim : Simulated}
    (hd : r.devices.find? c.device = some ⟨sim.handler, .simulated, true⟩) (hc : c.command = "")
    (hp : allBlank c.payload.toList = true ↔ c.command = "" ∧ c.args = "") :
    (∃ reply : Reply, ((r.handle ⟨c.device, c.payload⟩).limited limit).2 = some (.replied reply) ∧
      reply.success = true) ↔ r.TakesArgument limit c := by
  by_cases ha : c.args = ""
  · have hdispatch : r.dispatch? ⟨c.device, c.payload⟩ = .error .emptyCommand :=
      Registry.dispatch?_eq_emptyCommand_iff.mpr (hp.mpr ⟨hc, ha⟩)
    refine iff_of_false ?_ (fun h => h.2.1 ha)
    rintro ⟨reply, h, -⟩
    simp only [Registry.handle, hdispatch, Handling.limited_after] at h
    split at h <;> cases h
  · have hblank : allBlank c.payload.toList = false := by
      rw [← Bool.not_eq_true, hp]
      exact fun h => ha h.2
    have hname := Simulated.commandName_payload_of_empty hc ha
    have hhandle : ∀ sim : Simulated,
        r.devices.find? c.device = some ⟨sim.handler, .simulated, true⟩ →
        ((r.handle ⟨c.device, c.payload⟩).limited limit).2 =
          if ∀ most, limit = some most → sim.latency ≤ most then
            some (.replied (sim.reply ⟨c.device, c.payload⟩)) else none := by
      intro sim hd
      rw [Registry.handle_of_connected ⟨c.device, c.payload⟩ hd rfl hblank]
      exact Handling.limited_after
    constructor
    · rintro ⟨reply, h, hs⟩
      rw [hhandle sim hd] at h
      split at h
      · rename_i htime
        obtain rfl := CallResult.replied.inj (Option.some.inj h)
        rw [Simulated.success_reply_iff, hname] at hs
        exact ⟨hc, ha, sim, hd, hs, htime⟩
      · cases h
    · rintro ⟨-, -, sim', hd', hreject, htime⟩
      refine ⟨_, (hhandle sim' hd').trans (if_pos htime), ?_⟩
      rw [Simulated.success_reply_iff, hname]
      exact hreject

/-- The instruction of a line that a run has come to, and the alarms about the line. -/
theorem exists_perform_of_trace {ms : List Move} {res : Except Refusal RunOutcome}
    (ht : Trace p.course ms (.ended res)) (hi : (line, i) ∈ p.script.instructions)
    (hrun : some line ∈ cursorsOf ms) :
    ∃ ms₁ s, p.PerformMoves line i ms₁ s ∧ (∀ m ∈ ms₁, m ∈ ms) ∧
      alarmsAt line ms = alarmsOf ms₁ := by
  obtain ⟨rfl, -⟩ | ⟨o, ms', -, rfl, hr⟩ := Plan.runMoves_of_trace ht
  · cases hrun
  · rw [cursorsOf_append] at hrun
    obtain ⟨i', ms₁, s, hi', hp, hsub, he⟩ :=
      hr.exists_perform p.script.pairwise_instructions hrun
    have hnodup : (p.script.instructions.map (·.1)).Nodup :=
      p.script.pairwise_instructions.imp Nat.ne_of_lt
    obtain rfl : i' = i :=
      congrArg Prod.snd (List.inj_on_of_nodup_map hnodup hi' hi rfl)
    refine ⟨ms₁, s, hp, fun m hm => List.mem_append_right _ (hsub m hm), ?_⟩
    rw [alarmsAt_append, he]
    rfl

/-- **The alarms at a problem.**  By cases on what the run does at the line. -/
theorem Plan.PerformMoves.alarms_iff {ms : List Move} {step : Step} {l : String}
    (h : p.PerformMoves line i ms step) (hr : r.IsOfSimulated) (hl : i = .classify l)
    (hproblem : i.isProblem = true) (hserved : ∀ m ∈ ms, m.IsServedBy r) :
    alarmsOf ms ≠ [] ↔ ¬ ∃ c, i = .command c ∧ r.TakesArgument p.timing.limit c := by
  cases h with
  | waited hd =>
    rename_i seconds nanos _
    cases seconds with
    | none => cases hd
    | some x => cases hproblem
  | malformed | skipped =>
    refine iff_of_true (List.cons_ne_nil _ _) ?_
    rintro ⟨c, hc, -⟩
    cases hc
  | unconnected c =>
    refine iff_of_true (List.cons_ne_nil _ _) ?_
    rintro ⟨c', hc, -, -, sim, hd, -⟩
    cases hc
    have hfound : false = r.isConnected c.device := hserved _ List.mem_cons_self
    rw [Registry.isConnected_iff.mpr ⟨_, hd, rfl⟩] at hfound
    cases hfound
  | @sent c result ms _ hrest =>
    have hfound : true = r.isConnected c.device := hserved _ List.mem_cons_self
    obtain ⟨d, hd, hconnected⟩ := Registry.isConnected_iff.mp hfound.symm
    obtain ⟨hn, sim, hsim⟩ := hr _ _ hd
    rw [hsim, hconnected] at hd
    obtain ⟨hne, hblank, -⟩ := isDeviceName_iff.mp hn
    -- Nothing is wrong with the name of the device, so it is the command word that is missing.
    have hc : c.command = "" := by
      have hfree : c.device.toList.any isBlank = false := by simpa using hblank
      simpa [Instruction.isProblem, hne, hfree, -List.any_eq_true] using hproblem
    obtain ⟨hv, ha⟩ := Instruction.parts_of_classify hl.symm
    obtain ⟨t, hcalled⟩ : ∃ t, (r.handle ⟨c.device, c.payload⟩).limited p.timing.limit =
        (some t, result) :=
      hserved (.called ⟨c.device, c.payload⟩ p.timing.limit result) (by simp)
    have hack : failureReason? p.timing.limit result = none ↔ r.TakesArgument p.timing.limit c := by
      rw [failureReason?_eq_none_iff, ← acknowledged_iff_takesArgument hd hc
        (DeviceCommand.allBlank_payload_iff hv ha), hcalled]
    -- Of what is logged here, only the result can be an alarm.
    have halarms : alarmsOf (.foundDevice c.device true :: .told (.log (sentEntry c line)) ::
        .called ⟨c.device, c.payload⟩ p.timing.limit result ::
        .told (.log (resultEntry c line p.timing.limit result)) :: ms) =
          [resultEntry c line p.timing.limit result].filter (·.kind.isAlarm) ++ alarmsOf ms :=
      alarmsOf_append [.foundDevice c.device true, .told (.log (sentEntry c line)),
        .called ⟨c.device, c.payload⟩ p.timing.limit result,
        .told (.log (resultEntry c line p.timing.limit result))] ms
    rw [halarms, hrest.alarmsOf_eq, List.append_nil, Ne, List.filter_eq_nil_iff]
    simp [isAlarm_resultEntry, ← hack]

/-- **A problem that is run raises an alarm**, with one exception.  The registry is one that sound
settings set up, whatever further names were given on the spot; the run is in any mode, may be
stopped, and has come to the line.  The one problem without an alarm is a command without a command
word that has arguments, where the device is connected, is quick enough, and does not refuse the
command that it takes the first argument for.  For the gateway refuses a command without a command
word only if it has no arguments either. -/
theorem alarm_of_problem_iff {p : Plan} {s : Settings} {extra : List String} {r : Registry}
    {ms : List Move} {res : Except Refusal RunOutcome} {line : Nat} {i : Instruction}
    (hs : s.fault? = none) (hr : s.registry? extra = .ok r)
    (ht : Trace p.course ms (.ended res)) (hserved : ∀ m ∈ ms, m.IsServedBy r)
    (hi : (line, i) ∈ p.script.instructions) (hproblem : i.isProblem = true)
    (hrun : some line ∈ cursorsOf ms) :
    ((∃ e ∈ alarmsOf ms, e.line = some line) ↔
      ¬ ∃ c, i = .command c ∧ r.TakesArgument p.timing.limit c) ∧
    ∀ c, i = .command c → c.command = "" →
      (r.dispatch? ⟨c.device, c.payload⟩ = .error .emptyCommand ↔ c.args = "") := by
  obtain ⟨l, -, hl⟩ := Script.exists_line_of_mem hi
  refine ⟨?_, ?_⟩
  · obtain ⟨ms₁, step, hp, hsub, hal⟩ := exists_perform_of_trace ht hi hrun
    have halarm : (∃ e ∈ alarmsOf ms, e.line = some line) ↔ alarmsOf ms₁ ≠ [] := by
      rw [← hal, alarmsAt, Ne, List.filter_eq_nil_iff]
      simp
    rw [halarm]
    exact hp.alarms_iff (Settings.isOfSimulated_registry? hs hr) hl hproblem
      fun m hm => hserved m (hsub m hm)
  · rintro c rfl hc
    obtain ⟨hv, ha⟩ := Instruction.parts_of_classify hl.symm
    rw [Registry.dispatch?_eq_emptyCommand_iff, DeviceCommand.allBlank_payload_iff hv ha]
    exact and_iff_right hc

/-- A plan for a script of two problems. -/
def problemPlan : Plan where
  script := ⟨none, ["alpha. home", "cycle 3"]⟩

/-- A run of that plan. -/
def problemMoves : List Move :=
  problemPlan.openingMoves ++
    [.foundStop false, .told (.cursor (some 0)), .foundDevice "alpha" true,
      .told (.log (sentEntry ⟨"alpha", "", "home"⟩ 0)),
      .called ⟨"alpha", " home"⟩ (some 10000) (some (.replied .ok)),
      .told (.log (resultEntry ⟨"alpha", "", "home"⟩ 0 (some 10000) (some (.replied .ok)))),
      .rested 100000000 .due, .foundStop false, .told (.cursor (some 1)),
      .told (.log (skippedEntry "cycle 3" (.reserved "cycle") 1))] ++
    closingMoves (some 1) .completed

/-- The command without a command word goes through, and the use of a keyword is warned of. -/
theorem alarms_of_problemPlan :
    Trace problemPlan.course problemMoves (.ended (.ok .completed)) ∧
      (∀ m ∈ problemMoves, m.IsServedBy aloneRegistry) ∧
      (¬ ∃ e ∈ alarmsOf problemMoves, e.line = some 0) ∧
      ∃ e ∈ alarmsOf problemMoves, e.line = some 1 := by
  have hs : Settings.fault? { devices := [{ name := "alpha" }] } = none := by decide
  have hr : Settings.registry? { devices := [{ name := "alpha" }] } [] = .ok aloneRegistry := rfl
  have ht : Trace problemPlan.course problemMoves (.ended (.ok .completed)) :=
    trace_of_resultAfter? (by decide)
  have hserved : ∀ m ∈ problemMoves, m.IsServedBy aloneRegistry := by decide
  have htakes : aloneRegistry.TakesArgument problemPlan.timing.limit ⟨"alpha", "", "home"⟩ :=
    ⟨rfl, by decide, {}, rfl, List.not_mem_nil, fun _ _ => Nat.zero_le _⟩
  have hlines : problemPlan.script.instructions =
      [(0, .command ⟨"alpha", "", "home"⟩), (1, .unrecognized "cycle 3" (.reserved "cycle"))] := by
    decide
  obtain ⟨hfirst, -⟩ := alarm_of_problem_iff hs hr ht hserved
    (hlines ▸ List.mem_cons_self) (by decide) (by decide)
  obtain ⟨hsecond, -⟩ := alarm_of_problem_iff hs hr ht hserved
    (hlines ▸ List.mem_cons_of_mem _ List.mem_cons_self) (by decide) (by decide)
  refine ⟨ht, hserved, ?_, ?_⟩
  · rw [hfirst, not_not]
    exact ⟨_, rfl, htakes⟩
  · rw [hsecond]
    rintro ⟨c, hc, -⟩
    cases hc

/-- **A problem that is run without an alarm.**  The command for `alpha` has no command word, and
the device acknowledges it all the same. -/
theorem exists_problem_without_alarm :
    ∃ (s : Settings) (r : Registry) (p : Plan) (ms : List Move) (line : Nat) (c : DeviceCommand),
      s.fault? = none ∧ s.registry? [] = .ok r ∧
      Trace p.course ms (.ended (.ok .completed)) ∧ (∀ m ∈ ms, m.IsServedBy r) ∧
      (line, .command c) ∈ p.script.instructions ∧ (Instruction.command c).isProblem = true ∧
      c.command = "" ∧ some line ∈ cursorsOf ms ∧ (¬ ∃ e ∈ alarmsOf ms, e.line = some line) ∧
      r.dispatch? ⟨c.device, c.payload⟩ ≠ .error .emptyCommand := by
  refine ⟨{ devices := [{ name := "alpha" }] }, aloneRegistry, problemPlan, problemMoves, 0,
    ⟨"alpha", "", "home"⟩, by decide, rfl, trace_of_resultAfter? (by decide), by decide, by decide,
    by decide, rfl, by decide, by decide, ?_⟩
  exact fun h => by cases h

end DeviceScript
