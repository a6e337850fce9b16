import DeviceScript.Proofs.Course.Log
import DeviceScript.Proofs.Course.Served
import Mathlib.Data.List.Chain
import Mathlib.Data.List.Nodup
/-!
# Commands and the registry at the moment

A run whose devices are in a registry asks it twice about every command: whether the device is
connected, and, when the command is handed over, for the handler.  These are two pieces of code, and
the registry changes while the run is suspended.  Here they are shown to agree
(`Plan.attends_of_steps`): at a command line that a run comes to, the run fails if the device is
not connected at that moment, and otherwise the command goes to the handler that is registered at
that moment, unless it is blank.  So the second question is never answered with an unknown device or
one that is not connected.

A move is paired with the registry as it was when the run set about it.  What carries the argument
is that the registry stays the same from one move to the next, unless the first is a suspension
(`Answered.steady`): what a run does from where it comes to a line to where it hands the command over
contains none.
-/

namespace DeviceScript

variable {p : Plan} {last : Option Nat} {line : Nat} {i : Instruction} {cur : Option Nat}
  {items : List (Nat × Instruction)} {ms ms' earlier rest : List Move} {s : Step} {o : RunOutcome}
  {cmd : DeviceCommand} {r : Registry}

/-! ## 1. Pieces -/

/-- A move is made in the first of two pieces or in the second. -/
theorem cut_cases {m : Move} (h : ms ++ ms' = earlier ++ m :: rest) :
    (∃ between, earlier = ms ++ between ∧ ms' = between ++ m :: rest) ∨
      ∃ between, ms = earlier ++ m :: between ∧ rest = between ++ ms' := by
  rcases List.append_eq_append_iff.mp h with ⟨between, h₁, h₂⟩ | ⟨_ | ⟨m', between⟩, h₁, h₂⟩
  · exact .inl ⟨between, h₁, h₂⟩
  · exact .inl ⟨[], by rw [h₁, List.append_nil, List.append_nil], h₂.symm⟩
  · obtain ⟨rfl, hrest⟩ := List.cons.inj h₂
    exact .inr ⟨between, h₁, hrest⟩

/-- A move that is not in the first of two pieces is made in the second. -/
theorem exists_behind (ms : List Move) {m : Move} (hm : m ∉ ms) (h : ms ++ ms' = earlier ++ m :: rest) :
    ∃ between, earlier = ms ++ between ∧ ms' = between ++ m :: rest := by
  rcases cut_cases h with hb | ⟨between, rfl, -⟩
  · exact hb
  · exact absurd (List.mem_append_right _ List.mem_cons_self) hm

theorem notMem_of_isArrival (h : ∀ m ∈ ms, m.isArrival = false) :
    .told (.cursor (some line)) ∉ ms :=
  fun hm => Bool.false_ne_true (h _ hm).symm

/-! ## 2. Deliveries -/

namespace Registry

/-- What comes of a command that is handed to the registry and waited for up to the limit. -/
def resultOf (r : Registry) (request : Request) (limit : Option Nat) : Option CallResult :=
  ((r.handle request).limited limit).2

/-- **What a registry makes of a command for a connected device**: the handler registered under the
name of the device takes it as it is, or it is blank and refused for being empty. -/
inductive Delivers (r : Registry) (request : Request) (limit : Option Nat) :
    Option CallResult → Prop
  | handed {d : Device} (hd : r.devices.find? request.device = some d) (hc : d.connected = true)
      (hr : r.dispatch? request = .ok d.handler) :
      Delivers r request limit ((d.handler request).limited limit).2
  | refused (hb : Text.allBlank request.command.toList = true)
      (hr : r.dispatch? request = .error .emptyCommand) :
      Delivers r request limit (some (.failed .emptyCommand))

/-- **The two questions agree.**  What is handed over for a connected device is delivered. -/
theorem delivers_of_isConnected {request : Request} (h : r.isConnected request.device = true)
    (limit : Option Nat) : r.Delivers request limit (r.resultOf request limit) := by
  obtain ⟨d, hd, hc⟩ := isConnected_iff.mp h
  cases hb : Text.allBlank request.command.toList with
  | false =>
    rw [resultOf, handle_of_connected request hd hc hb]
    exact .handed hd hc (dispatch?_of_connected request hd hc hb)
  | true =>
    have hr : r.dispatch? request = .error .emptyCommand := dispatch?_eq_emptyCommand_iff.mpr hb
    have hresult : r.resultOf request limit = some (.failed .emptyCommand) := by
      rw [resultOf, handle, hr]
      cases limit <;> rfl
    rw [hresult]
    exact .refused hb hr

/-- No command that is delivered is refused, except for being blank. -/
theorem Delivers.eq_emptyCommand {request : Request} {limit : Option Nat}
    {result : Option CallResult} {e : GatewayError} (h : r.Delivers request limit result)
    (he : r.dispatch? request = .error e) :
    e = .emptyCommand ∧ Text.allBlank request.command.toList = true := by
  cases h with
  | handed _ _ hr => cases hr.symm.trans he
  | refused hb hr => exact ⟨(Except.error.inj (hr.symm.trans he)).symm, hb⟩

end Registry

/-! ## 3. What a run does at a command line -/

namespace Plan

/-- The moves with which a run hands a command over and logs what came of it. -/
def sendingMoves (p : Plan) (line : Nat) (cmd : DeviceCommand) (result : Option CallResult) :
    List Move :=
  [.foundDevice cmd.device true, .told (.log (sentEntry cmd line)),
    .called ⟨cmd.device, cmd.payload⟩ p.timing.limit result,
    .told (.log (resultEntry cmd line p.timing.limit result))]

/-- The moves of a run that fails at a command. -/
def missingMoves (line : Nat) (cmd : DeviceCommand) : List Move :=
  .foundDevice cmd.device false :: .told (.log (unconnectedEntry cmd line)) ::
    closingMoves (some line) (.failed (unconnectedReason cmd line))

/-- What a run does at a command: it hands it over, or fails there. -/
theorem PerformMoves.command_cases (h : p.PerformMoves line (.command cmd) ms s) :
    (∃ result, p.sendingMoves line cmd result <+: ms) ∨
      ms = [.foundDevice cmd.device false, .told (.log (unconnectedEntry cmd line))] ∧
        s = .fail (unconnectedReason cmd line) := by
  cases h with
  | @sent _ result ms _ _ => exact .inl ⟨result, ms, rfl⟩
  | unconnected => exact .inr ⟨rfl, rfl⟩

theorem LineMoves.command_cases (h : p.LineMoves last line (.command cmd) ms s) :
    (∃ result, p.sendingMoves line cmd result <+: ms) ∨
      ms = [.foundDevice cmd.device false, .told (.log (unconnectedEntry cmd line))] ∧
        s = .fail (unconnectedReason cmd line) := by
  cases h with
  | plain hp _ => exact hp.command_cases
  | paused hp _ _ =>
    rcases hp.command_cases with ⟨result, hms⟩ | ⟨-, hs⟩
    · exact .inl ⟨result, hms.trans (List.prefix_append _ _)⟩
    · cases hs

/-- **Where a run comes to a line, it takes that line**, and if it does not go on after it, its last
moves come next.  By induction on the lines that it takes. -/
theorem RunMoves.exists_line (h : p.RunMoves last items cur ms o) :
    ∀ {earlier}, ms = earlier ++ .told (.cursor (some line)) :: rest →
    ∃ i ms₁ s more, (line, i) ∈ items ∧ p.LineMoves last line i ms₁ s ∧ rest = ms₁ ++ more ∧
      ∀ o', s.outcome? = some o' → more = closingMoves (some line) o' ∧ o = o' := by
  have hclose : ∀ {cur o earlier},
      closingMoves cur o ≠ earlier ++ .told (.cursor (some line)) :: rest :=
    fun he => notMem_of_isArrival (isArrival_closingMoves _ _) (he ▸ List.mem_append_cons_self)
  induction h with
  | completed => exact fun he => absurd he hclose
  | stopped =>
    intro earlier he
    obtain ⟨between, -, he⟩ := exists_behind [_] (by simp) he
    exact absurd he hclose
  | passedOver _ _ ih =>
    intro earlier he
    obtain ⟨between, -, he⟩ := exists_behind [_] (by simp) he
    obtain ⟨i, ms₁, s, more, hi, hrest⟩ := ih he
    exact ⟨i, ms₁, s, more, List.mem_cons_of_mem _ hi, hrest⟩
  | @taken line' i _ _ ms ms' _ _ hl _ ih =>
    intro earlier he
    obtain ⟨_ | ⟨m, between⟩, -, he⟩ := exists_behind [_] (by simp) he
    · obtain ⟨hm, rfl⟩ := List.cons.inj he
      cases hm
      exact ⟨i, ms, .goOn, ms', List.mem_cons_self, hl, rfl, nofun⟩
    · obtain ⟨-, he⟩ := List.cons.inj he
      obtain ⟨between, -, he⟩ := exists_behind _ (notMem_of_isArrival hl.isArrival_eq) he
      obtain ⟨i, ms₁, s, more, hi, hrest⟩ := ih he
      exact ⟨i, ms₁, s, more, List.mem_cons_of_mem _ hi, hrest⟩
  | @broken line' i _ _ ms s o _ hl hs =>
    intro earlier he
    obtain ⟨_ | ⟨m, between⟩, -, he⟩ := exists_behind [_] (by simp) he
    · obtain ⟨hm, rfl⟩ := List.cons.inj he
      cases hm
      refine ⟨i, ms, s, _, List.mem_cons_self, hl, rfl, fun o' ho' => ?_⟩
      cases hs.symm.trans ho'
      exact ⟨rfl, rfl⟩
    · obtain ⟨-, he⟩ := List.cons.inj he
      obtain ⟨between, -, he⟩ := exists_behind _ (notMem_of_isArrival hl.isArrival_eq) he
      exact absurd he hclose

/-- **What a whole run does at a command line** that it comes to. -/
theorem command_of_ended (h : Course.Trace p.course ms (.ended (.ok o)))
    (hms : ms = earlier ++ .told (.cursor (some line)) :: rest)
    (hi : (line, .command cmd) ∈ p.script.instructions) :
    (∃ result, p.sendingMoves line cmd result <+: rest) ∨
      rest = missingMoves line cmd ∧ o = .failed (unconnectedReason cmd line) := by
  rcases Plan.runMoves_of_trace h with ⟨-, hr⟩ | ⟨o', ms', ho, rfl, hr⟩
  · cases hr
  · obtain rfl : o = o' := Except.ok.inj ho
    obtain ⟨between, -, he⟩ := exists_behind _ (by simp [openingMoves]) hms
    obtain ⟨i, ms₁, s, more, hmem, hl, rfl, hend⟩ := hr.exists_line he
    have hnodup : (p.script.instructions.map (·.1)).Nodup :=
      p.script.pairwise_instructions.imp Nat.ne_of_lt
    obtain rfl : i = .command cmd :=
      congrArg Prod.snd (List.inj_on_of_nodup_map hnodup hmem hi rfl)
    rcases hl.command_cases with ⟨result, hpre⟩ | ⟨rfl, rfl⟩
    · exact .inl ⟨result, hpre.trans (List.prefix_append _ _)⟩
    · obtain ⟨rfl, rfl⟩ := hend _ rfl
      exact .inr ⟨rfl, rfl⟩

/-! ## 4. Calls -/

variable {request : Request} {limit : Option Nat} {result : Option CallResult}

/-- No call is made by moves that no block of the log depends on. -/
theorem ne_of_isOfLine (h : ∀ m ∈ ms, m.isOfLine = false) :
    ms ≠ earlier ++ .called request limit result :: rest := by
  rintro rfl
  exact Bool.false_ne_true (h _ List.mem_append_cons_self).symm

/-- **A call at an instruction** comes right behind the question for the device. -/
theorem PerformMoves.call_eq (h : p.PerformMoves line i ms s)
    (hms : ms = earlier ++ .called request limit result :: rest) :
    ∃ cmd, i = .command cmd ∧ request = ⟨cmd.device, cmd.payload⟩ ∧ limit = p.timing.limit ∧
      earlier = [.foundDevice cmd.device true, .told (.log (sentEntry cmd line))] := by
  cases h with
  | waited _ hr => exact absurd hms (ne_of_isOfLine hr.isOfLine_eq)
  | malformed | skipped => exact absurd hms (ne_of_isOfLine (by simp [Move.isOfLine]))
  | unconnected cmd =>
    obtain ⟨between, -, he⟩ := exists_behind [_] (by simp) hms
    exact absurd he (ne_of_isOfLine (by simp [Move.isOfLine]))
  | sent cmd result' hr =>
    obtain ⟨_ | ⟨m, between⟩, rfl, he⟩ := exists_behind [_, _] (by simp) hms
    · cases he
      exact ⟨cmd, rfl, rfl, rfl, rfl⟩
    · obtain ⟨-, he⟩ := List.cons.inj he
      obtain ⟨between, -, he⟩ := exists_behind [_] (by simp) he
      exact absurd he (ne_of_isOfLine hr.isOfLine_eq)

theorem LineMoves.call_eq (h : p.LineMoves last line i ms s)
    (hms : ms = earlier ++ .called request limit result :: rest) :
    ∃ cmd, i = .command cmd ∧ request = ⟨cmd.device, cmd.payload⟩ ∧ limit = p.timing.limit ∧
      earlier = [.foundDevice cmd.device true, .told (.log (sentEntry cmd line))] := by
  cases h with
  | plain hp _ => exact hp.call_eq hms
  | paused hp _ hw =>
    rcases cut_cases hms with ⟨between, -, he⟩ | ⟨between, he, -⟩
    · have hmem : .called request limit result ∈ between ++ .called request limit result :: rest :=
        List.mem_append_cons_self
      rw [← he] at hmem
      cases hw <;> simp at hmem
    · exact hp.call_eq he

/-- **A call of a run** is that of a line which it has just come to. -/
theorem RunMoves.call_eq (h : p.RunMoves last items cur ms o) :
    ∀ {earlier}, ms = earlier ++ .called request limit result :: rest →
    ∃ before line cmd, (line, .command cmd) ∈ items ∧ request = ⟨cmd.device, cmd.payload⟩ ∧
      limit = p.timing.limit ∧
      earlier = before ++ [.told (.cursor (some line)), .foundDevice cmd.device true,
        .told (.log (sentEntry cmd line))] := by
  have hclose : ∀ {cur o earlier},
      closingMoves cur o ≠ earlier ++ .called request limit result :: rest :=
    ne_of_isOfLine (isOfLine_closingMoves _ _)
  induction h with
  | completed => exact fun he => absurd he hclose
  | stopped =>
    intro earlier he
    obtain ⟨between, -, he⟩ := exists_behind [_] (by simp) he
    exact absurd he hclose
  | @passedOver line' _ _ _ _ _ _ _ ih =>
    intro earlier he
    obtain ⟨between, rfl, he'⟩ := exists_behind [_] (by simp) he
    obtain ⟨before, line, cmd, hi, hr, hlim, rfl⟩ := ih he'
    exact ⟨.foundStop false :: before, line, cmd, List.mem_cons_of_mem _ hi, hr, hlim, rfl⟩
  | @taken line' i _ _ ms ms' _ _ hl _ ih =>
    intro earlier he
    obtain ⟨between, rfl, he'⟩ := exists_behind [_, _] (by simp) he
    rcases cut_cases he' with ⟨between, rfl, hnext⟩ | ⟨between', hline, -⟩
    · obtain ⟨before, line, cmd, hi, hr, hlim, rfl⟩ := ih hnext
      exact ⟨[.foundStop false, .told (.cursor (some line'))] ++ (ms ++ before), line, cmd,
        List.mem_cons_of_mem _ hi, hr, hlim, by simp only [List.append_assoc]⟩
    · obtain ⟨cmd, rfl, hr, hlim, rfl⟩ := hl.call_eq hline
      exact ⟨[.foundStop false], line', cmd, List.mem_cons_self, hr, hlim, rfl⟩
  | @broken line' i _ _ ms s o _ hl hs =>
    intro earlier he
    obtain ⟨between, rfl, he'⟩ := exists_behind [_, _] (by simp) he
    rcases cut_cases he' with ⟨between, rfl, hnext⟩ | ⟨between', hline, -⟩
    · exact absurd hnext hclose
    · obtain ⟨cmd, rfl, hr, hlim, rfl⟩ := hl.call_eq hline
      exact ⟨[.foundStop false], line', cmd, List.mem_cons_self, hr, hlim, rfl⟩

end Plan

/-- The lines that a run comes to in two pieces. -/
theorem lines_append (ms ms' : List Move) :
    (visitsOf (ms ++ ms')).map (·.1) = (visitsOf ms).map (·.1) ++ (visitsOf ms').map (·.1) := by
  fun_induction visitsOf ms with
  | case1 => rfl
  | case2 line ms ih =>
    change line :: (visitsOf (ms ++ ms')).map (·.1) = _
    rw [ih]
    rfl
  | case3 m ms hm ih =>
    rw [List.cons_append, visitsOf]
    · exact ih
    · exact hm

/-- **A run comes to every line at most once**, in the order of the script. -/
theorem Plan.pairwise_lines {c : Course} (h : Course.Trace p.course ms c) :
    ((visitsOf ms).map (·.1)).Pairwise (· < ·) := by
  have ended : ∀ {ms : List Move} {res : Except Refusal RunOutcome},
      Course.Trace p.course ms (.ended res) → ((visitsOf ms).map (·.1)).Pairwise (· < ·) := by
    intro ms res ht
    rcases Plan.runMoves_of_trace ht with ⟨rfl, -⟩ | ⟨o, ms', -, rfl, hr⟩
    · exact .nil
    · obtain ⟨n, hn, -⟩ := hr.logs.lines
      change ((visitsOf ms').map (·.1)).Pairwise (· < ·)
      rw [hn]
      refine p.script.pairwise_instructions.sublist ?_
      exact ((List.take_sublist _ _).trans List.filter_sublist).map _
  obtain ⟨ms', res, ht⟩ := Course.exists_trace c
  have hall := ended (h.append ht)
  rw [lines_append] at hall
  exact (List.pairwise_append.mp hall).1

/-! ## 5. Steps -/

/-- The answer is that of the registry, both as a directory and as a gateway. -/
def Move.IsAnsweredBy (r : Registry) : Move → Prop
  | foundAny a => a = r.hasAny
  | foundDevice name a => a = r.isConnected name
  | called request limit result => result = r.resultOf request limit
  | _ => True

/-- **Moves that are paired with the registry as it was when the run set about them.**  Each has the
answer of its registry, and the registry changes only while the run is suspended. -/
structure Answered (steps : List (Registry × Move)) : Prop where
  answers : ∀ x ∈ steps, x.2.IsAnsweredBy x.1
  steady : steps.IsChain fun x y => x.2.isSuspension = false → y.1 = x.1

/-- Moves that are all made under one registry. -/
theorem answered_map (h : ∀ m ∈ ms, m.IsAnsweredBy r) : Answered (ms.map (r, ·)) where
  answers x hx := by
    obtain ⟨m, hm, rfl⟩ := List.mem_map.mp hx
    exact h m hm
  steady := by
    rw [List.isChain_map]
    exact (List.pairwise_of_forall fun _ _ _ => rfl).isChain

theorem Answered.append {steps steps' : List (Registry × Move)} (h : Answered steps)
    (h' : Answered steps') (hb : ∀ x ∈ steps.getLast?, ∀ y ∈ steps'.head?,
      x.2.isSuspension = false → y.1 = x.1) : Answered (steps ++ steps') where
  answers := List.forall_mem_append.mpr ⟨h.answers, h'.answers⟩
  steady := h.steady.append h'.steady hb

/-- What is left of a course can be gone along to its end with the answers of one registry. -/
theorem Course.exists_answered (r : Registry) (c : Course) :
    ∃ ms res, Trace c ms (.ended res) ∧ ∀ m ∈ ms, m.IsAnsweredBy r := by
  have step : ∀ {c c' : Course} {m : Move}, Moves c m c' → m.IsAnsweredBy r →
      (∃ ms res, Trace c' ms (.ended res) ∧ ∀ m ∈ ms, m.IsAnsweredBy r) →
      ∃ ms res, Trace c ms (.ended res) ∧ ∀ m ∈ ms, m.IsAnsweredBy r :=
    fun hm ha ⟨ms, res, h, hms⟩ =>
      ⟨_ :: ms, res, .cons hm h, List.forall_mem_cons.mpr ⟨ha, hms⟩⟩
  induction c with
  | ended res => exact ⟨[], res, .nil _, fun _ hm => absurd hm List.not_mem_nil⟩
  | tell _ _ ih => exact step .tell trivial ih
  | askAny _ ih => exact step (.askAny _) rfl (ih _)
  | askDevice name _ ih => exact step (.askDevice _) rfl (ih _)
  | askStop _ ih => exact step (.askStop true) trivial (ih true)
  | rest _ _ ih => exact step (.rest .due) trivial (ih .due)
  | call request limit _ ih => exact step (.call _) rfl (ih _)
  | arm _ ih => exact step .arm trivial ih
  | park _ ih => exact step (.park .due) trivial (ih .due)
  | disarm _ ih => exact step .disarm trivial ih

/-- **What a run does at a command line** under this registry, `rest` being all that it does from
where it comes to the line to its end, and `o` its outcome.  Either the device is connected and the
command is delivered, or it is not and the run fails there. -/
def Plan.Attends (p : Plan) (r : Registry) (line : Nat) (cmd : DeviceCommand) (rest : List Move)
    (o : RunOutcome) : Prop :=
  (r.isConnected cmd.device = true ∧
      ∃ result, r.Delivers ⟨cmd.device, cmd.payload⟩ p.timing.limit result ∧
        p.sendingMoves line cmd result <+: rest) ∨
    r.isConnected cmd.device = false ∧
      rest = missingMoves line cmd ∧ o = .failed (unconnectedReason cmd line)

/-- **A whole run attends to the commands of its lines** under the registry of the moment when it
comes to them. -/
theorem Plan.attends_of_ended {steps before after : List (Registry × Move)}
    (h : Course.Trace p.course (steps.map (·.2)) (.ended (.ok o))) (ha : Answered steps)
    (hsteps : steps = before ++ (r, .told (.cursor (some line))) :: after)
    (hi : (line, .command cmd) ∈ p.script.instructions) :
    p.Attends r line cmd (after.map (·.2)) o := by
  have hms : steps.map (·.2) =
      before.map (·.2) ++ .told (.cursor (some line)) :: after.map (·.2) := by
    rw [hsteps, List.map_append]
    rfl
  subst hsteps
  obtain ⟨hanswers, hsteady⟩ := ha
  have hchain := hsteady.right_of_append
  have hafter := (List.forall_mem_cons.mp (List.forall_mem_append.mp hanswers).2).2
  rcases command_of_ended h hms hi with ⟨result, more, hrest⟩ | ⟨hrest, ho⟩
  · -- the question, the log entry and the handover all come under the registry of the arrival
    obtain ⟨⟨r₁, m₁⟩, after₁, rfl, h₁, hrest₁⟩ := List.map_eq_cons_iff.mp hrest.symm
    obtain ⟨⟨r₂, m₂⟩, after₂, rfl, h₂, hrest₂⟩ := List.map_eq_cons_iff.mp hrest₁
    obtain ⟨⟨r₃, m₃⟩, after₃, rfl, h₃, hrest₃⟩ := List.map_eq_cons_iff.mp hrest₂
    simp only at h₁ h₂ h₃
    subst h₁ h₂ h₃
    simp only [List.isChain_cons_cons, Move.isSuspension, true_imp_iff] at hchain
    obtain ⟨rfl, rfl, rfl, -⟩ := hchain
    simp only [List.forall_mem_cons, Move.IsAnsweredBy] at hafter
    obtain ⟨hfound, -, hresult, -⟩ := hafter
    refine .inl ⟨hfound.symm, result, ?_, more, hrest⟩
    rw [hresult]
    exact Registry.delivers_of_isConnected hfound.symm _
  · obtain ⟨⟨r₁, m₁⟩, after₁, rfl, h₁, -⟩ := List.map_eq_cons_iff.mp hrest
    simp only at h₁
    subst h₁
    simp only [List.isChain_cons_cons, Move.isSuspension, true_imp_iff] at hchain
    obtain ⟨rfl, -⟩ := hchain
    have hfound := (List.forall_mem_cons.mp hafter).1
    exact .inr ⟨hfound.symm, hrest, ho⟩

/-- **Every command line that a run comes to is attended to**, whatever part of the run is over.  What
is still to come of it is `future`; nothing is after the end of the run. -/
theorem Plan.attends_of_steps {steps before after : List (Registry × Move)} {c : Course}
    (h : Course.Trace p.course (steps.map (·.2)) c) (ha : Answered steps)
    (hsteps : steps = before ++ (r, .told (.cursor (some line))) :: after)
    (hi : (line, .command cmd) ∈ p.script.instructions) :
    ∃ future o, p.Attends r line cmd (after.map (·.2) ++ future) o ∧
      ∀ res, c = .ended res → future = [] ∧ res = .ok o := by
  -- what is still to come is answered by the registry of the last move
  let r' := (steps.getLast?.map (·.1)).getD Registry.empty
  obtain ⟨future, res, ht, hfuture⟩ := Course.exists_answered r' c
  have hall : Answered (steps ++ future.map (r', ·)) := by
    refine ha.append (answered_map hfuture) fun x hx y hy _ => ?_
    obtain ⟨m, -, rfl⟩ := List.mem_map.mp (List.mem_of_mem_head? hy)
    simp only [r', Option.mem_def.mp hx, Option.map_some, Option.getD_some]
  have hmap : ∀ l : List (Registry × Move),
      (l ++ future.map (r', ·)).map (·.2) = l.map (·.2) ++ future := by
    intro l
    rw [List.map_append, List.map_map]
    exact congrArg (_ ++ ·) (List.map_id future)
  have hrun : Course.Trace p.course ((steps ++ future.map (r', ·)).map (·.2)) (.ended res) := by
    rw [hmap]
    exact h.append ht
  have hsplit : steps ++ future.map (r', ·) =
      before ++ (r, .told (.cursor (some line))) :: (after ++ future.map (r', ·)) := by
    rw [hsteps, List.append_assoc, List.cons_append]
  have hok : ∃ o, res = .ok o := by
    rcases runMoves_of_trace hrun with ⟨hnone, -⟩ | ⟨o, -, ho, -, -⟩
    · rw [hsplit, List.map_append, List.map_cons] at hnone
      have hmem : .told (.cursor (some line)) ∈ [Move.foundAny false] :=
        hnone ▸ List.mem_append_cons_self
      simp at hmem
    · exact ⟨o, ho⟩
  obtain ⟨o, rfl⟩ := hok
  have hattends := attends_of_ended hrun hall hsplit hi
  rw [hmap] at hattends
  refine ⟨future, o, hattends, fun res hres => ?_⟩
  subst hres
  obtain ⟨rfl, ho⟩ := Course.trace_ended ht
  exact ⟨rfl, ho.symm⟩

/-- **Every call is that of a command line which the run has just come to**, and of its payload. -/
theorem Plan.call_of_trace {c : Course} (h : Course.Trace p.course ms c)
    (hms : ms = earlier ++ .called request limit result :: rest) :
    ∃ before line cmd, (line, .command cmd) ∈ p.script.instructions ∧
      request = ⟨cmd.device, cmd.payload⟩ ∧ limit = p.timing.limit ∧
      earlier = before ++ [.told (.cursor (some line)), .foundDevice cmd.device true,
        .told (.log (sentEntry cmd line))] := by
  obtain ⟨future, res, ht⟩ := Course.exists_trace c
  have hsplit : ms ++ future = earlier ++ .called request limit result :: (rest ++ future) := by
    rw [hms, List.append_assoc, List.cons_append]
  rcases runMoves_of_trace (h.append ht) with ⟨hnone, -⟩ | ⟨o, ms', -, hopen, hr⟩
  · have hmem : .called request limit result ∈ [Move.foundAny false] :=
      hnone ▸ hsplit ▸ List.mem_append_cons_self
    simp at hmem
  · obtain ⟨between, rfl, he⟩ :=
      exists_behind _ (by simp [openingMoves]) (hopen.symm.trans hsplit)
    obtain ⟨before, line, cmd, hi, hreq, hlim, rfl⟩ := hr.call_eq he
    exact ⟨p.openingMoves ++ before, line, cmd, hi, hreq, hlim, by rw [List.append_assoc]⟩

/-- **Every call is delivered** under the registry of the moment when the run comes to its line. -/
theorem Plan.call_of_steps {steps before after : List (Registry × Move)} {c : Course}
    (h : Course.Trace p.course (steps.map (·.2)) c) (ha : Answered steps)
    (hsteps : steps = before ++ (r, .called request limit result) :: after) :
    ∃ earlier line cmd, (line, .command cmd) ∈ p.script.instructions ∧
      request = ⟨cmd.device, cmd.payload⟩ ∧ limit = p.timing.limit ∧
      before = earlier ++ [(r, .told (.cursor (some line))), (r, .foundDevice cmd.device true),
        (r, .told (.log (sentEntry cmd line)))] ∧
      r.Delivers request limit result := by
  have hms : steps.map (·.2) =
      before.map (·.2) ++ .called request limit result :: after.map (·.2) := by
    rw [hsteps, List.map_append]
    rfl
  obtain ⟨moves, line, cmd, hi, rfl, hlimit, hbefore⟩ := call_of_trace h hms
  obtain ⟨earlier, three, rfl, -, hthree⟩ := List.map_eq_append_iff.mp hbefore
  obtain ⟨⟨r₁, m₁⟩, two, rfl, h₁, htwo⟩ := List.map_eq_cons_iff.mp hthree
  obtain ⟨⟨r₂, m₂⟩, one, rfl, h₂, hone⟩ := List.map_eq_cons_iff.mp htwo
  obtain ⟨⟨r₃, m₃⟩, rfl, h₃⟩ := List.map_eq_singleton_iff.mp hone
  simp only at h₁ h₂ h₃
  subst h₁ h₂ h₃ hsteps
  have hchain := ha.steady
  rw [List.append_assoc] at hchain
  replace hchain := hchain.right_of_append
  simp only [List.cons_append, List.nil_append, List.isChain_cons_cons, Move.isSuspension,
    true_imp_iff] at hchain
  obtain ⟨rfl, rfl, rfl, -⟩ := hchain
  have hfound : true = r.isConnected cmd.device := ha.answers (r, .foundDevice cmd.device true) (by simp)
  have hresult : result = r.resultOf ⟨cmd.device, cmd.payload⟩ limit :=
    ha.answers (r, .called ⟨cmd.device, cmd.payload⟩ limit result) (by simp)
  refine ⟨earlier, line, cmd, hi, rfl, hlimit, rfl, ?_⟩
  rw [hresult]
  exact Registry.delivers_of_isConnected hfound.symm limit

end DeviceScript
