import DeviceScript.Proofs.Course.States
import DeviceScript.Run.Signals
/-!
# The phases of a pause

A run opens the gate of a pause before it tells of the pause, waits there, shuts the gate, and only
then tells that it is running again or takes its leave.  These are the phases of a pause (`Phase`),
and no run makes a move that does not belong to its phase (`Plan.exists_phase`).

Beside the phases an account is kept of the continues that were accepted (`Account`).  In every
phase it is known where the gate stands and what the account says: each continue that was accepted
has led from a pause back to running, except perhaps one.  That one is still to come, or the run was
stopped at the pause.  What carries the account through a run is one lemma on a move
(`Account.move`); how a bench changes the gate enters it only through `Move.Works`.
-/

namespace DeviceScript

/-! ## 1. The gate of a pause -/

/-- What may happen to the gate of a run while the run itself leaves it alone and `k` continues are
accepted.  A gate that was left behind goes when a continue comes for it. -/
inductive Gate.Takes : Gate → Nat → Gate → Prop
  | none (g : Gate) : Takes g 0 g
  | release : Takes .waiting 1 .released
  | drop : Takes .abandoned 0 .clear

section Takes

variable {g g' g'' : Gate} {k k' : Nat}

theorem Gate.Takes.trans (h : g.Takes k g') (h' : g'.Takes k' g'') : g.Takes (k + k') g'' := by
  cases h with
  | none =>
    rw [Nat.zero_add]
    exact h'
  | release =>
    cases h'
    exact .release
  | drop =>
    cases h'
    exact .drop

/-- Only a gate that waits for a continue takes one, and none begins to wait by itself. -/
theorem Gate.Takes.of_ne_waiting (h : g.Takes k g') (hg : g ≠ .waiting) :
    k = 0 ∧ g' ≠ .waiting := by
  cases h with
  | none => exact ⟨rfl, hg⟩
  | release => exact absurd rfl hg
  | drop => exact ⟨rfl, nofun⟩

/-- No gate is left behind by a continue. -/
theorem Gate.Takes.ne_abandoned (h : g.Takes k g') (hg : g ≠ .abandoned) : g' ≠ .abandoned := by
  cases h with
  | none => exact hg
  | release | drop => exact nofun

theorem Gate.Takes.of_clear (h : Gate.clear.Takes k g') : k = 0 ∧ g' = .clear := by
  cases h
  exact ⟨rfl, rfl⟩

/-- A continue is accepted exactly when the gate waits for one. -/
theorem Signals.takes_requestContinue (s : Signals) :
    s.gate.Takes (if s.requestContinue.2 then 1 else 0) s.requestContinue.1.gate := by
  obtain ⟨stop, gate⟩ := s
  cases gate with
  | clear | released => exact .none _
  | waiting => exact .release
  | abandoned => exact .drop

theorem Signals.requestContinue_snd (s : Signals) :
    s.requestContinue.2 = decide (s.gate = .waiting) := by
  obtain ⟨stop, gate⟩ := s
  cases gate <;> rfl

/-- A pause lacks its continue where a gate waits, or was left behind. -/
theorem Signals.isPausePending_iff {s : Signals} :
    s.isPausePending = true ↔ s.gate = .waiting ∨ s.gate = .abandoned := by
  simp [isPausePending]

/-- A continue that is not accepted changes nothing but a gate that was left behind. -/
theorem Signals.requestContinue_of_ne_waiting {s : Signals} (h : s.gate ≠ .waiting) :
    s.requestContinue.1 = s ∨ s.gate = .abandoned ∧ s.requestContinue.1 = s.disarm := by
  obtain ⟨stop, gate⟩ := s
  cases gate with
  | clear | released => exact .inl rfl
  | waiting => exact absurd rfl h
  | abandoned => exact .inr ⟨rfl, rfl⟩

/-- A run that breaks off waits for no continue. -/
theorem Signals.gate_abandon_ne_waiting (s : Signals) : s.abandon.gate ≠ .waiting := by
  obtain ⟨stop, gate⟩ := s
  cases gate <;> exact nofun

end Takes

/-- What a move of a run does to the gate, `k` continues being accepted meanwhile. -/
def Move.Works : Move → Gate → Nat → Gate → Prop
  | told _, g, k, g' => g.Takes k g'
  | armed, _, k, g' => k = 0 ∧ g' = .waiting
  | disarmed, _, k, g' => k = 0 ∧ g' = .clear
  | parked .due, g, k, g' => g = .released ∧ k = 0 ∧ g' = g
  | _, g, k, g' => k = 0 ∧ g' = g

/-! ## 2. Phases -/

/-- Where a run stands with its pauses. -/
inductive Phase where
  /-- It is at no pause. -/
  | away
  /-- It has opened the gate of a pause and has not yet told of the pause. -/
  | armed
  /-- It has told of the pause. -/
  | paused
  /-- A continue has ended the pause. -/
  | released
  /-- It has shut the gate after a continue. -/
  | resuming
  /-- A stop has ended the pause. -/
  | leaving
  /-- It has shut the gate after a stop. -/
  | closing
  deriving Repr, DecidableEq

namespace Phase

/-- The phase after a move, if it is one that a run can make in the phase. -/
def after? : Phase → Move → Option Phase
  | away, .armed => some armed
  | away, .disarmed => none
  | away, .parked _ => none
  | away, .told (.state .paused) => none
  | away, _ => some away
  | armed, .told (.state .paused) => some paused
  | paused, .told (.log _) => some paused
  | paused, .parked .due => some released
  | paused, .parked .stopped => some leaving
  | released, .disarmed => some resuming
  | resuming, .told (.state .running) => some away
  | leaving, .disarmed => some closing
  | closing, .told (.state .paused) => none
  | closing, .told (.state .running) => none
  | closing, .told _ => some closing
  | _, _ => none

/-- The phase after some moves. -/
def afterAll? (ph : Phase) (ms : List Move) : Option Phase := ms.foldlM after? ph

variable {ph ph' : Phase} {ms ms' : List Move}

theorem afterAll?_append (h : ph.afterAll? ms = some ph') :
    ph.afterAll? (ms ++ ms') = ph'.afterAll? ms' := by
  rw [afterAll?, List.foldlM_append]
  exact congrArg (· >>= _) h

theorem afterAll?_singleton (ph : Phase) (m : Move) : ph.afterAll? [m] = ph.after? m :=
  bind_pure _

theorem afterAll?_concat {m : Move} (h : ph.afterAll? ms = some ph') :
    ph.afterAll? (ms ++ [m]) = ph'.after? m := by
  rw [afterAll?_append h, afterAll?_singleton]

/-- A run leaves a pause only when a stop ends it. -/
theorem eq_of_after? {m : Move} (h : ph.after? m = some ph') (hph : ph' = leaving ∨ ph' = closing) :
    m = .parked .stopped ∨ ph = leaving ∨ ph = closing := by
  rcases hph with rfl | rfl <;> revert h <;> fun_cases after? ph m <;> simp

/-- A run that tells something is at no pause, or it has come to one, or it was stopped at one. -/
theorem of_after?_told {n : Notice} (h : ph.after? (.told n) = some ph') :
    ph' = away ∨ ph' = paused ∨ ph' = closing := by
  cases n with
  | state s => cases ph <;> cases s <;> cases h <;> simp
  | started | cursor | log => cases ph <;> cases h <;> simp

end Phase

/-! ## 3. Whole runs -/

open Phase

variable {p : Plan} {last : Option Nat} {line : Nat} {i : Instruction} {cur : Option Nat}
  {items : List (Nat × Instruction)} {ms : List Move} {s : Step} {o : RunOutcome}

/-- A rest is no pause. -/
theorem RestMoves.phase {nanos : Nat} (h : RestMoves nanos ms s) :
    away.afterAll? ms = some away := by
  cases h <;> rfl

namespace Plan

/-- Nothing that an instruction asks for is a pause. -/
theorem PerformMoves.phase (h : p.PerformMoves line i ms s) : away.afterAll? ms = some away := by
  cases h with
  | waited _ hr => exact hr.phase
  | sent c result hr => exact hr.phase
  | malformed | unconnected | skipped => rfl

/-- A line leads away from its pause, unless a stop ends it. -/
theorem LineMoves.phase (h : p.LineMoves last line i ms s) :
    away.afterAll? ms = some away ∨
      away.afterAll? ms = some closing ∧ s = .stop ∧ statesOf ms = [.paused] := by
  cases h with
  | plain hp _ => exact .inl hp.phase
  | @paused ms ms' w hp _ hw =>
    have hms : statesOf ms = [] := by
      obtain ⟨es, he, -⟩ := hp.noticesOf_eq
      rw [statesOf, he, filterMap_state?_logs]
    rw [afterAll?_append hp.phase, statesOf_append, hms]
    cases hw with
    | refused => exact .inl rfl
    | stopped => exact .inr ⟨rfl, rfl, rfl⟩
    | continued => exact .inl rfl

/-- How a run stands at its end: at no pause, or stopped at one. -/
def EndsIn (ph : Phase) (o : RunOutcome) (ms : List Move) : Prop :=
  ph = .away ∨ ph = .closing ∧ o = .stopped ∧ ∃ ss, statesOf ms = ss ++ [.paused, .stopping, .stopped]

/-- Moves in front do not change how a run ends. -/
theorem EndsIn.append {ph : Phase} (h : EndsIn ph o ms) (ms₀ : List Move) :
    EndsIn ph o (ms₀ ++ ms) := by
  rcases h with h | ⟨h, ho, ss, hs⟩
  · exact .inl h
  · exact .inr ⟨h, ho, statesOf ms₀ ++ ss, by rw [statesOf_append, hs, List.append_assoc]⟩

theorem phase_closingMoves (cur : Option Nat) (o : RunOutcome) :
    away.afterAll? (closingMoves cur o) = some away := by
  cases o <;> cases cur <;> rfl

/-- **All lines keep to the phases.**  By induction on the lines that the run takes; at the top of
each it is at no pause. -/
theorem RunMoves.phase (h : p.RunMoves last items cur ms o) :
    ∃ ph, away.afterAll? ms = some ph ∧ EndsIn ph o ms := by
  induction h with
  | completed | stopped => exact ⟨away, phase_closingMoves _ _, .inl rfl⟩
  | passedOver _ _ ih =>
    obtain ⟨ph, hph, he⟩ := ih
    exact ⟨ph, hph, he.append [_]⟩
  | @taken line _ _ _ ms ms' _ _ hl _ ih =>
    obtain ⟨ph, hph, he⟩ := ih
    rcases hl.phase with h1 | ⟨-, h1, -⟩
    · refine ⟨ph, ?_, (he.append ms).append [_, _]⟩
      exact (afterAll?_append h1).trans hph
    · cases h1
  | @broken line _ _ _ ms s o _ hl ho =>
    rcases hl.phase with h1 | ⟨h1, rfl, hs⟩
    · exact ⟨away, (afterAll?_append h1).trans (phase_closingMoves _ _), .inl rfl⟩
    · obtain rfl : RunOutcome.stopped = o := Option.some.inj ho
      refine ⟨closing, (afterAll?_append h1).trans rfl, .inr ⟨rfl, rfl, [], ?_⟩⟩
      change statesOf (ms ++ closingMoves (some line) .stopped) = _
      rw [statesOf_append, hs, statesOf_closingMoves]
      rfl

/-- A whole run keeps to the phases. -/
theorem phase_of_ended {r : Except Refusal RunOutcome} (h : p.course.Trace ms (.ended r)) :
    ∃ ph, away.afterAll? ms = some ph ∧ EndsIn ph (Course.outcomeOf r) ms := by
  rcases runMoves_of_trace h with ⟨rfl, rfl⟩ | ⟨o, ms', rfl, rfl, hr⟩
  · exact ⟨away, rfl, .inl rfl⟩
  · obtain ⟨ph, hph, he⟩ := hr.phase
    exact ⟨ph, hph, he.append _⟩

end Plan

/-! ## 4. Runs that are still going -/

namespace Plan

variable {c : Course}

/-- **A run keeps to the phases**, and so do its next moves, whatever answers it gets. -/
theorem exists_phase (h : p.course.Trace ms c) :
    ∃ ph, away.afterAll? ms = some ph ∧
      ∀ ms' c', c.Trace ms' c' → ∃ ph', ph.afterAll? ms' = some ph' := by
  have key : ∀ {ms c}, p.course.Trace ms c → ∃ ph, away.afterAll? ms = some ph := by
    intro ms c h
    obtain ⟨ms', r, h'⟩ := c.exists_trace
    obtain ⟨ph, hph, -⟩ := phase_of_ended (h.append h')
    rw [afterAll?, List.foldlM_append] at hph
    obtain ⟨ph', hph', -⟩ := Option.bind_eq_some_iff.mp hph
    exact ⟨ph', hph'⟩
  obtain ⟨ph, hph⟩ := key h
  refine ⟨ph, hph, fun ms' c' h' => ?_⟩
  obtain ⟨ph', hph'⟩ := key (h.append h')
  exact ⟨ph', (afterAll?_append hph).symm.trans hph'⟩

/-- The phase of a run says which moves it can make. -/
theorem phase_of_moves {m : Move} {c' : Course} {ph : Phase} (h : p.course.Trace ms c)
    (hm : c.Moves m c') (hph : ∀ ph', (ph'.after? m).isSome = true → ph' = ph) :
    away.afterAll? ms = some ph := by
  obtain ⟨ph', hph', hnext⟩ := exists_phase h
  obtain ⟨ph'', h''⟩ := hnext [m] c' (.cons hm (.nil _))
  have hsome : (ph'.after? m).isSome = true := by
    rw [← afterAll?_concat hph', afterAll?_append hph', h'']
    rfl
  rw [← hph ph' hsome]
  exact hph'

/-- A run that waits at a pause has told of it. -/
theorem phase_of_park {next : Wake → Course} (h : p.course.Trace ms (.park next)) :
    away.afterAll? ms = some paused :=
  phase_of_moves h (.park .due) fun ph => by cases ph <;> simp [after?]

/-- A run that rests is at no pause. -/
theorem phase_of_rest {nanos : Nat} {next : Wake → Course}
    (h : p.course.Trace ms (.rest nanos next)) : away.afterAll? ms = some away :=
  phase_of_moves h (.rest .due) fun ph => by cases ph <;> simp [after?]

/-- A run that waits for a device is at no pause. -/
theorem phase_of_call {request : Request} {limit : Option Nat} {next : Option CallResult → Course}
    (h : p.course.Trace ms (.call request limit next)) : away.afterAll? ms = some away :=
  phase_of_moves h (.call none) fun ph => by cases ph <;> simp [after?]

end Plan

/-! ## 5. The account of continues -/

/-- How often a run that makes these states known comes from a pause back to running. -/
def resumptions (ss : List RunState) : Nat :=
  (ss.zip ss.tail).count (.paused, .running)

/-- One more state counts if it is running and comes after paused. -/
theorem resumptions_concat : ∀ (ss : List RunState) (s : RunState),
    resumptions (ss ++ [s]) =
      resumptions ss + if ss.getLast? = some .paused ∧ s = .running then 1 else 0
  | [], s => by simp [resumptions]
  | [t], s => by cases t <;> cases s <;> rfl
  | t :: t' :: ss, s => by
    have ih := resumptions_concat (t' :: ss) s
    have hcons : ∀ ss', resumptions (t :: t' :: ss') =
        resumptions (t' :: ss') + if (t, t') = (.paused, .running) then 1 else 0 := by
      intro ss'
      simp only [resumptions, List.tail_cons, List.zip_cons_cons, List.count_cons, beq_iff_eq]
    rw [List.cons_append, List.cons_append, hcons, hcons, List.getLast?_cons_cons,
      ← List.cons_append, ih]
    omega

namespace Phase

/-- The state last made known in a phase. -/
def Follows : Phase → Option RunState → Prop
  | away, s | armed, s => s ≠ some .paused
  | closing, _ => True
  | _, s => s = some .paused

/-- **What the account says in a phase**, `granted` continues having been accepted and the run having
come back to running `resumed` times. -/
def Balances : Phase → (g : Gate) → (granted resumed : Nat) → Prop
  | away, g, n, r => g = .clear ∧ n = r
  | armed, g, n, r | paused, g, n, r | leaving, g, n, r =>
    g = .waiting ∧ n = r ∨ g = .released ∧ n = r + 1
  | released, g, n, r => g = .released ∧ n = r + 1
  | resuming, g, n, r => g = .clear ∧ n = r + 1
  | closing, g, n, r => g = .clear ∧ (n = r ∨ n = r + 1)

/-- In every phase all continues but one at the most have led to resumptions. -/
theorem Balances.or {ph : Phase} {g : Gate} {n r : Nat} (h : ph.Balances g n r) :
    n = r ∨ n = r + 1 := by
  cases ph with
  | away => exact .inl h.2
  | armed | paused | leaving => exact h.imp And.right And.right
  | released | resuming => exact .inr h.2
  | closing => exact h.2

/-- Continues that are accepted go into the account. -/
theorem Balances.takes {ph : Phase} {g g' : Gate} {k n r : Nat} (h : ph.Balances g n r)
    (ht : g.Takes k g') : ph.Balances g' (n + k) r := by
  cases ht with
  | none => exact h
  | release =>
    cases ph with
    | armed | paused | leaving =>
      rcases h with ⟨-, rfl⟩ | ⟨hg, -⟩
      · exact .inr ⟨rfl, rfl⟩
      · cases hg
    | away | released | resuming | closing => cases h.1
  | drop =>
    cases ph with
    | armed | paused | leaving => rcases h with ⟨hg, -⟩ | ⟨hg, -⟩ <;> cases hg
    | away | released | resuming | closing => cases h.1

end Phase

/-- **The account of a run** that has made the moves `ms`: `granted` continues were accepted, `late`
of them since the run was last suspended. -/
structure Account (ms : List Move) (g : Gate) (granted late : Nat) (ph : Phase) : Prop where
  phase : away.afterAll? ms = some ph
  follows : ph.Follows (statesOf ms).getLast?
  balances : ph.Balances g granted (resumptions (statesOf ms))
  late : ph = .armed ∨ ph = .paused → g = .released → 0 < late

/-- The account of a run that has made no move. -/
theorem account_nil : Account [] .clear 0 0 away where
  phase := rfl
  follows := nofun
  balances := ⟨rfl, rfl⟩
  late := by rintro (h | h) <;> cases h

namespace Account

variable {g g' : Gate} {granted late k : Nat} {ph ph' : Phase} {m : Move}

/-- Continues are accepted between two moves. -/
theorem takes (h : Account ms g granted late ph) (ht : g.Takes k g') :
    Account ms g' (granted + k) (late + k) ph where
  phase := h.phase
  follows := h.follows
  balances := h.balances.takes ht
  late hph hg := by
    cases ht with
    | none => exact h.late hph hg
    | release => exact Nat.succ_pos _
    | drop => cases hg

/-- A run that is at no pause, or at one that is over, may be suspended. -/
theorem restart (h : Account ms g granted late ph) (ha : ph ≠ .armed) (hp : ph ≠ .paused) :
    Account ms g granted 0 ph :=
  { h with late := fun hph => (hph.elim ha hp).elim }

/-- A move that makes no state known. -/
theorem silent (h : Account ms g granted late ph) (hs : statesOf [m] = [])
    (hph : ph.after? m = some ph') (hf : ∀ s, ph.Follows s → ph'.Follows s)
    (hb : ∀ r, ph.Balances g granted r → ph'.Balances g' granted r)
    (hl : ph' = .armed ∨ ph' = .paused → g' = .released → 0 < late) :
    Account (ms ++ [m]) g' granted late ph' where
  phase := (afterAll?_concat h.phase).trans hph
  follows := by
    rw [statesOf_append, hs, List.append_nil]
    exact hf _ h.follows
  balances := by
    rw [statesOf_append, hs, List.append_nil]
    exact hb _ h.balances
  late := hl

/-- A move that makes a state known, whatever the state known before. -/
theorem tellState {s : RunState} (h : Account ms g granted late ph)
    (hph : ph.after? (.told (.state s)) = some ph') :
    Account (ms ++ [.told (.state s)]) g granted late ph' where
  phase := (afterAll?_concat h.phase).trans hph
  follows := by
    rw [statesOf_append, show statesOf [.told (.state s)] = [s] from rfl, List.getLast?_concat]
    cases ph <;> cases s <;> cases hph <;> simp [Follows]
  balances := by
    rw [statesOf_append, show statesOf [.told (.state s)] = [s] from rfl, resumptions_concat]
    have hf := h.follows
    have hb := h.balances
    cases ph <;> cases s <;> cases hph <;> simp_all [Follows, Balances]
  late hph' hg := by
    refine h.late ?_ hg
    cases ph <;> cases s <;> cases hph <;> simp_all

/-- A notice goes out. -/
theorem tell {n : Notice} (h : Account ms g granted late ph)
    (hph : ph.after? (.told n) = some ph') : Account (ms ++ [.told n]) g granted late ph' := by
  cases n with
  | state s => exact h.tellState hph
  | started | cursor | log =>
    cases ph <;> cases hph <;> exact h.silent rfl rfl (fun _ => id) (fun _ => id) h.late

/-- **A move keeps the account.** -/
theorem move (h : Account ms g granted late ph) (hph : ph.after? m = some ph')
    (hw : m.Works g k g') : Account (ms ++ [m]) g' (granted + k) (late + k) ph' := by
  cases m with
  | told n => exact (h.takes hw).tell hph
  | armed =>
    obtain ⟨rfl, rfl⟩ := hw
    cases ph <;> cases hph
    exact h.silent rfl rfl (fun _ => id) (fun r hb => .inl ⟨rfl, hb.2⟩) nofun
  | disarmed =>
    obtain ⟨rfl, rfl⟩ := hw
    cases ph <;> cases hph
    · exact h.silent rfl rfl (fun _ => id) (fun r hb => ⟨rfl, hb.2⟩) nofun
    · refine h.silent rfl rfl (fun _ _ => trivial) (fun r hb => ⟨rfl, ?_⟩) nofun
      exact hb.imp And.right And.right
  | parked w =>
    cases w with
    | due =>
      obtain ⟨rfl, rfl, rfl⟩ := hw
      cases ph <;> cases hph
      refine h.silent rfl rfl (fun _ => id) (fun r hb => ⟨rfl, ?_⟩) (by rintro (h | h) <;> cases h)
      rcases hb with ⟨hg, -⟩ | ⟨-, hn⟩
      · cases hg
      · exact hn
    | stopped =>
      obtain ⟨rfl, rfl⟩ := hw
      cases ph <;> cases hph
      exact h.silent rfl rfl (fun _ => id) (fun _ => id) (by rintro (h | h) <;> cases h)
  | foundAny | foundDevice | foundStop | rested | called =>
    obtain ⟨rfl, rfl⟩ := hw
    cases ph <;> cases hph
    exact h.silent rfl rfl (fun _ => id) (fun _ => id) h.late

end Account

end DeviceScript
