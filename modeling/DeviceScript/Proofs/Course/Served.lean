import DeviceScript.Device.Registry
import DeviceScript.Proofs.Course.States
/-!
# Runs that a registry serves

A registry knows who is connected and takes commands, so it can give all the answers that a run
needs from the devices (`Move.IsServedBy`).  When nobody asks for a stop either
(`Move.IsUndisturbed`), every answer is settled, and a course has one run: whatever happens on the
way is the beginning of it (`Course.Trace.isPrefix`).

What goes wrong in a run is what it logs as a warning or as an error, its alarms (`alarmsOf`).  They
come from what the run does at single lines and name these lines
(`Plan.RunMoves.exists_perform`); a rest, a pause and the end of a run raise none.
-/

namespace DeviceScript

/-! ## 1. What a registry makes of a command -/

namespace Registry

variable {r : Registry} {request : Request} {d : Device}

/-- A device that is connected is known. -/
theorem isConnected_iff {name : String} :
    r.isConnected name = true ↔ ∃ d, r.devices.find? name = some d ∧ d.connected = true := by
  simp [isConnected, Option.any_eq_true]

/-- Only what is blank is refused for being empty. -/
theorem dispatch?_eq_emptyCommand_iff :
    r.dispatch? request = .error .emptyCommand ↔ Text.allBlank request.command.toList = true := by
  unfold dispatch?
  split
  · simp [*]
  · split
    · simp [*]
    · split <;> simp [*]

/-- What is not blank goes to the handler of a connected device. -/
theorem dispatch?_of_connected (request : Request) (hd : r.devices.find? request.device = some d)
    (hc : d.connected = true) (hb : Text.allBlank request.command.toList = false) :
    r.dispatch? request = .ok d.handler := by
  simp [dispatch?, hb, hd, hc]

theorem handle_of_connected (request : Request) (hd : r.devices.find? request.device = some d)
    (hc : d.connected = true) (hb : Text.allBlank request.command.toList = false) :
    r.handle request = d.handler request := by
  rw [handle, dispatch?_of_connected request hd hc hb]

end Registry

/-! ## 2. Answers -/

/-- The answer is one that a registry gives that is both the directory and the gateway of a run. -/
def Move.IsServedBy (r : Registry) : Move → Prop
  | foundAny a => a = r.hasAny
  | foundDevice name a => a = r.isConnected name
  | called request limit result => ∃ ms, (r.handle request).limited limit = (some ms, result)
  | _ => True

/-- No stop is asked for, and a pause is continued. -/
def Move.IsUndisturbed : Move → Prop
  | foundStop a => a = false
  | rested _ w => w = .due
  | parked w => w = .due
  | _ => True

/-- All answers are those of the registry, and no stop is asked for. -/
def Undisturbed (r : Registry) (ms : List Move) : Prop :=
  ∀ m ∈ ms, m.IsServedBy r ∧ m.IsUndisturbed

instance (r : Registry) : DecidablePred (Move.IsServedBy r)
  | .foundAny a => inferInstanceAs (Decidable (a = r.hasAny))
  | .foundDevice name a => inferInstanceAs (Decidable (a = r.isConnected name))
  | .called request limit result =>
    decidable_of_iff (((r.handle request).limited limit).1.isSome ∧
        ((r.handle request).limited limit).2 = result) <| by
      simp [Move.IsServedBy, Prod.ext_iff, Option.isSome_iff_exists]
  | .told _ | .foundStop _ | .rested .. | .armed | .parked _ | .disarmed => .isTrue trivial

instance : DecidablePred Move.IsUndisturbed
  | .foundStop a => inferInstanceAs (Decidable (a = false))
  | .rested _ w => inferInstanceAs (Decidable (w = .due))
  | .parked w => inferInstanceAs (Decidable (w = .due))
  | .told _ | .foundAny _ | .foundDevice .. | .called .. | .armed | .disarmed => .isTrue trivial

instance (r : Registry) (ms : List Move) : Decidable (Undisturbed r ms) :=
  inferInstanceAs (Decidable (∀ m ∈ ms, m.IsServedBy r ∧ m.IsUndisturbed))

section Append

variable {r : Registry} {m : Move} {ms ms₁ ms₂ : List Move}

theorem Undisturbed.append (h₁ : Undisturbed r ms₁) (h₂ : Undisturbed r ms₂) :
    Undisturbed r (ms₁ ++ ms₂) :=
  fun m hm => (List.mem_append.mp hm).elim (h₁ m) (h₂ m)

theorem undisturbed_cons : Undisturbed r (m :: ms) ↔
    (m.IsServedBy r ∧ m.IsUndisturbed) ∧ Undisturbed r ms :=
  List.forall_mem_cons

end Append

namespace Course

variable {r : Registry} {c c₁ c₂ : Course} {m₁ m₂ : Move} {ms ms' : List Move}

/-- Undisturbed, a course goes on in one way. -/
theorem Moves.unique (h₁ : Moves c m₁ c₁) (h₂ : Moves c m₂ c₂)
    (hm₁ : m₁.IsServedBy r ∧ m₁.IsUndisturbed) (hm₂ : m₂.IsServedBy r ∧ m₂.IsUndisturbed) :
    m₁ = m₂ ∧ c₁ = c₂ := by
  cases h₁ with
  | tell | arm | disarm =>
    cases h₂
    exact ⟨rfl, rfl⟩
  | askAny a =>
    cases h₂ with
    | askAny b =>
      obtain rfl : a = b := hm₁.1.trans hm₂.1.symm
      exact ⟨rfl, rfl⟩
  | askDevice a =>
    cases h₂ with
    | askDevice b =>
      obtain rfl : a = b := hm₁.1.trans hm₂.1.symm
      exact ⟨rfl, rfl⟩
  | askStop a =>
    cases h₂ with
    | askStop b =>
      obtain rfl : a = b := hm₁.2.trans hm₂.2.symm
      exact ⟨rfl, rfl⟩
  | rest w =>
    cases h₂ with
    | rest v =>
      obtain rfl : w = v := hm₁.2.trans hm₂.2.symm
      exact ⟨rfl, rfl⟩
  | park w =>
    cases h₂ with
    | park v =>
      obtain rfl : w = v := hm₁.2.trans hm₂.2.symm
      exact ⟨rfl, rfl⟩
  | call a =>
    cases h₂ with
    | call b =>
      obtain ⟨t, ht⟩ := hm₁.1
      obtain ⟨u, hu⟩ := hm₂.1
      obtain rfl : a = b := congrArg Prod.snd (ht.symm.trans hu)
      exact ⟨rfl, rfl⟩

/-- **Undisturbed, a course has one run.**  Whatever happens on the way is the beginning of it. -/
theorem Trace.isPrefix {res : Except Refusal RunOutcome} (h : Trace c ms (.ended res))
    (hms : Undisturbed r ms) (h' : Trace c ms' c₂) (hms' : Undisturbed r ms') : ms' <+: ms := by
  induction ms' generalizing c ms with
  | nil => exact List.nil_prefix
  | cons m' ms' ih =>
    cases h' with
    | cons hm' ht' =>
      cases h with
      | nil => cases hm'
      | cons hm ht =>
        obtain ⟨hm₁, hrest₁⟩ := undisturbed_cons.mp hms
        obtain ⟨hm₂, hrest₂⟩ := undisturbed_cons.mp hms'
        obtain ⟨rfl, rfl⟩ := hm.unique hm' hm₁ hm₂
        exact List.cons_prefix_cons.mpr ⟨rfl, ih ht hrest₁ ht' hrest₂⟩

end Course

/-! ## 3. Alarms -/

/-- Entries of this kind say that something went wrong. -/
def Log.Kind.isAlarm : Log.Kind → Bool
  | warning | error => true
  | _ => false

/-- The warnings and errors that the moves log. -/
def alarmsOf (ms : List Move) : List Log.Entry := (entriesOf ms).filter (·.kind.isAlarm)

@[simp] theorem alarmsOf_append (ms₁ ms₂ : List Move) :
    alarmsOf (ms₁ ++ ms₂) = alarmsOf ms₁ ++ alarmsOf ms₂ := by
  simp [alarmsOf]

/-- The alarms about a line. -/
def alarmsAt (line : Nat) (ms : List Move) : List Log.Entry :=
  (alarmsOf ms).filter (·.line = some line)

@[simp] theorem alarmsAt_append (line : Nat) (ms₁ ms₂ : List Move) :
    alarmsAt line (ms₁ ++ ms₂) = alarmsAt line ms₁ ++ alarmsAt line ms₂ := by
  simp [alarmsAt]

variable {p : Plan} {last : Option Nat} {line : Nat} {i : Instruction} {cur : Option Nat}
  {items : List (Nat × Instruction)} {ms : List Move} {s : Step} {o : RunOutcome}

/-- A rest raises no alarm. -/
theorem RestMoves.alarmsOf_eq {nanos : Nat} (h : RestMoves nanos ms s) : alarmsOf ms = [] := by
  rw [alarmsOf, entriesOf, h.noticesOf_eq]
  rfl

/-- A pause raises no alarm. -/
theorem PauseMoves.alarmsOf_eq {w : Wake} (h : PauseMoves line ms w) : alarmsOf ms = [] := by
  cases h <;> rfl

/-- The end of a run raises no alarm. -/
theorem alarmsOf_closingMoves (cur : Option Nat) (o : RunOutcome) :
    alarmsOf (closingMoves cur o) = [] := by
  rw [alarmsOf, entriesOf, closingMoves, noticesOf_map_told]
  cases o <;> cases cur <;> rfl

/-- The result of a command is an alarm exactly when there is a reason for it. -/
theorem isAlarm_resultEntry (c : DeviceCommand) (line : Nat) (limit : Option Nat)
    (result : Option CallResult) :
    (resultEntry c line limit result).kind.isAlarm = (failureReason? limit result).isSome := by
  unfold resultEntry
  cases failureReason? limit result <;> rfl

namespace Plan

/-- The alarms of an instruction are about its line. -/
theorem PerformMoves.alarmsAt_eq (h : p.PerformMoves line i ms s) :
    alarmsAt line ms = alarmsOf ms := by
  obtain ⟨es, he, hes⟩ := h.noticesOf_eq
  refine List.filter_eq_self.mpr ?_
  intro e hmem
  have hmem' : e ∈ entriesOf ms := (List.mem_filter.mp hmem).1
  rw [entriesOf, he, filterMap_entry?_logs] at hmem'
  simpa using (hes e hmem').line_eq

/-- The alarms of a line are those of its instruction. -/
theorem LineMoves.exists_perform (h : p.LineMoves last line i ms s) :
    ∃ ms₁ s₁, p.PerformMoves line i ms₁ s₁ ∧ ms₁ <+: ms ∧ alarmsOf ms = alarmsOf ms₁ := by
  cases h with
  | plain hp _ => exact ⟨ms, s, hp, List.prefix_rfl, rfl⟩
  | @paused ms₁ ms₂ _ hp _ hw =>
    refine ⟨ms₁, .goOn, hp, List.prefix_append _ _, ?_⟩
    rw [alarmsOf_append, hw.alarmsOf_eq, List.append_nil]

/-- A line raises no alarm about another one. -/
theorem LineMoves.alarmsAt_of_ne {other : Nat} (h : p.LineMoves last line i ms s)
    (hne : line ≠ other) : alarmsAt other ms = [] := by
  obtain ⟨ms₁, s₁, hp, -, he⟩ := h.exists_perform
  rw [alarmsAt, he, ← hp.alarmsAt_eq, alarmsAt, List.filter_filter]
  refine List.filter_eq_nil_iff.mpr ?_
  intro e _ h1
  simp only [Bool.and_eq_true, decide_eq_true_eq] at h1
  exact hne (Option.some.inj (h1.2.symm.trans h1.1))

/-- The end of a run raises no alarm about a line. -/
theorem alarmsAt_closingMoves (line : Nat) (cur : Option Nat) (o : RunOutcome) :
    alarmsAt line (closingMoves cur o) = [] := by
  rw [alarmsAt, alarmsOf_closingMoves]
  rfl

/-- A run raises no alarm about a line that it does not take. -/
theorem RunMoves.alarmsAt_eq_nil (h : p.RunMoves last items cur ms o)
    (hl : line ∉ items.map (·.1)) : alarmsAt line ms = [] := by
  induction h with
  | completed => exact alarmsAt_closingMoves _ _ _
  | stopped => exact alarmsAt_closingMoves _ _ _
  | passedOver _ _ ih =>
    rw [List.map_cons, List.mem_cons, not_or] at hl
    exact ih hl.2
  | @taken line' _ _ _ ms ms' _ _ hm _ ih =>
    rw [List.map_cons, List.mem_cons, not_or] at hl
    change alarmsAt line (ms ++ ms') = []
    rw [alarmsAt_append, hm.alarmsAt_of_ne (Ne.symm hl.1), ih hl.2]
    rfl
  | @broken line' _ _ _ ms _ o _ hm _ =>
    rw [List.map_cons, List.mem_cons, not_or] at hl
    change alarmsAt line (ms ++ closingMoves (some line') o) = []
    rw [alarmsAt_append, hm.alarmsAt_of_ne (Ne.symm hl.1), alarmsAt_closingMoves]
    rfl

/-- A line that no later moves raise an alarm about has the alarms that its instruction raised. -/
theorem LineMoves.exists_perform_append (h : p.LineMoves last line i ms s) {ms' : List Move}
    (hms' : alarmsAt line ms' = []) :
    ∃ ms₁ s₁, p.PerformMoves line i ms₁ s₁ ∧
      (∀ m ∈ ms₁, m ∈ .foundStop false :: .told (.cursor (some line)) :: (ms ++ ms')) ∧
      alarmsAt line (.foundStop false :: .told (.cursor (some line)) :: (ms ++ ms')) =
        alarmsOf ms₁ := by
  obtain ⟨ms₁, s₁, hp, hpre, he⟩ := h.exists_perform
  refine ⟨ms₁, s₁, hp, ?_, ?_⟩
  · intro m hm
    exact List.mem_cons_of_mem _ (List.mem_cons_of_mem _ (List.mem_append_left ms' (hpre.subset hm)))
  · change alarmsAt line (ms ++ ms') = alarmsOf ms₁
    rw [alarmsAt_append, hms', List.append_nil, alarmsAt, he]
    exact hp.alarmsAt_eq

/-- **The alarms about a line that a run has come to** are those that its instruction raised.  By
induction on the lines, of which no other has the same number. -/
theorem RunMoves.exists_perform (h : p.RunMoves last items cur ms o)
    (ha : (items.map (·.1)).Pairwise (· < ·)) (hc : some line ∈ cursorsOf ms) :
    ∃ i ms₁ s, (line, i) ∈ items ∧ p.PerformMoves line i ms₁ s ∧ (∀ m ∈ ms₁, m ∈ ms) ∧
      alarmsAt line ms = alarmsOf ms₁ := by
  induction h with
  | completed => exact absurd hc (some_notMem_cursorsOf_closingMoves _ _ _)
  | stopped => exact absurd hc (some_notMem_cursorsOf_closingMoves _ _ _)
  | passedOver _ _ ih =>
    obtain ⟨i, ms₁, s, hi, hp, hsub, he⟩ := ih (List.pairwise_cons.mp ha).2 hc
    exact ⟨i, ms₁, s, List.mem_cons_of_mem _ hi, hp, fun m hm => List.mem_cons_of_mem _ (hsub m hm), he⟩
  | @taken line' i more _ ms ms' _ _ hm hr ih =>
    obtain ⟨hlt, ha'⟩ := List.pairwise_cons.mp ha
    change some line ∈ some line' :: cursorsOf (ms ++ ms') at hc
    rw [cursorsOf_append, hm.cursorsOf_eq, List.nil_append, List.mem_cons] at hc
    rcases hc with hc | hc
    · obtain rfl : line = line' := Option.some.inj hc
      have hnot : line ∉ more.map (·.1) := fun hmem => Nat.lt_irrefl line (hlt line hmem)
      obtain ⟨ms₁, s, hp, hsub, he⟩ := hm.exists_perform_append (hr.alarmsAt_eq_nil hnot)
      exact ⟨i, ms₁, s, List.mem_cons_self, hp, hsub, he⟩
    · obtain ⟨i', ms₁, s, hi, hp, hsub, he⟩ := ih ha' hc
      have hne : line' ≠ line := Nat.ne_of_lt (hlt line (List.mem_map.mpr ⟨_, hi, rfl⟩))
      refine ⟨i', ms₁, s, List.mem_cons_of_mem _ hi, hp, ?_, ?_⟩
      · intro m hmem
        exact List.mem_cons_of_mem _ (List.mem_cons_of_mem _
          (List.mem_append_right ms (hsub m hmem)))
      · change alarmsAt line (ms ++ ms') = alarmsOf ms₁
        rw [alarmsAt_append, hm.alarmsAt_of_ne hne, List.nil_append, he]
  | @broken line' i more _ ms _ o _ hm _ =>
    change some line ∈ some line' :: cursorsOf (ms ++ closingMoves (some line') o) at hc
    rw [cursorsOf_append, hm.cursorsOf_eq, List.nil_append, List.mem_cons] at hc
    rcases hc with hc | hc
    · obtain rfl : line = line' := Option.some.inj hc
      obtain ⟨ms₁, s, hp, hsub, he⟩ :=
        hm.exists_perform_append (alarmsAt_closingMoves line (some line) o)
      exact ⟨i, ms₁, s, List.mem_cons_self, hp, hsub, he⟩
    · exact absurd hc (some_notMem_cursorsOf_closingMoves _ _ _)

end Plan

end DeviceScript
