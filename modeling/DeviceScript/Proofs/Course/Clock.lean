import DeviceScript.Proofs.Course.Cursors
import DeviceScript.Proofs.Course.Deliveries
import Mathlib.Algebra.GroupWithZero.Nat
/-!
# The time that a run takes

A course knows nothing of clocks.  Here a run is followed by a clock that counts thousand-millionths
of a second and keeps perfect time: a rest takes exactly as long as it is meant to, a call takes as
long as the gateway needs but no longer than the limit, and everything else takes no time at all.
What surrounds the run may change as time goes on and may depend on all that it has seen of the run
(`Scene`).  Nobody asks for a stop.

A whole run is one that goes on for as long as it can (`Scene.WholeRun`).  It has ended, or waits for
ever, for a reply that never comes or for a continue that never comes (`Scene.IsStuck.cases`).

For a run that goes on by itself and sets its calls a limit, the time is accounted for
(`time_of_continuous_run`): such a run always ends, its calls come one after the other with the
settling time between them, and it takes the time of the delays that it came to and of its calls,
each with the settling time behind it.  An account is kept of each piece (`Accounted`), and accounts
add up (`Accounted.append`); so the induction on the lines has to look at one line only.
-/

namespace DeviceScript

open Course

/-! ## 1. Runs by the clock -/

/-- What holds of a course if it holds of all that one move leads to, holds of every course. -/
theorem Course.induction_on_moves {P : Course → Prop}
    (step : ∀ c, (∀ {m c'}, Moves c m c' → P c') → P c) (c : Course) : P c := by
  induction c with
  | ended r => exact step _ fun hm => nomatch hm
  | tell _ _ ih => exact step _ fun hm => by cases hm; exact ih
  | askAny _ ih => exact step _ fun hm => by cases hm; exact ih _
  | askDevice _ _ ih => exact step _ fun hm => by cases hm; exact ih _
  | askStop _ ih => exact step _ fun hm => by cases hm; exact ih _
  | rest _ _ ih => exact step _ fun hm => by cases hm; exact ih _
  | call _ _ _ ih => exact step _ fun hm => by cases hm; exact ih _
  | arm _ ih => exact step _ fun hm => by cases hm; exact ih
  | park _ ih => exact step _ fun hm => by cases hm; exact ih _
  | disarm _ ih => exact step _ fun hm => by cases hm; exact ih

/-- A move of a run, and the moments at which it begins and ends, in thousand-millionths of a
second. -/
structure Passage where
  move : Move
  start : Nat
  finish : Nat
  deriving Repr, DecidableEq

/-- Whether the surroundings of a run have a part in the move. -/
def Move.isEncounter : Move → Bool
  | foundAny _ | foundDevice .. | rested .. | called .. | parked _ => true
  | _ => false

/-- The moves of the passages. -/
def movesOf (qs : List Passage) : List Move := qs.map (·.move)

/-- What the surroundings of a run have seen of it. -/
def encountersOf (qs : List Passage) : List Passage := qs.filter (·.move.isEncounter)

/-- The passages that are calls. -/
def callsOf (qs : List Passage) : List Passage :=
  qs.filter fun q => match q.move with
    | .called .. => true
    | _ => false

/-- The moment at which passages are over that begin now. -/
def finishOf (now : Nat) : List Passage → Nat
  | [] => now
  | q :: qs => finishOf q.finish qs

section Append

variable (qs₁ qs₂ : List Passage)

theorem movesOf_append : movesOf (qs₁ ++ qs₂) = movesOf qs₁ ++ movesOf qs₂ :=
  List.map_append

theorem encountersOf_append :
    encountersOf (qs₁ ++ qs₂) = encountersOf qs₁ ++ encountersOf qs₂ :=
  List.filter_append _ _

theorem callsOf_append : callsOf (qs₁ ++ qs₂) = callsOf qs₁ ++ callsOf qs₂ :=
  List.filter_append _ _

theorem finishOf_append (now : Nat) :
    finishOf now (qs₁ ++ qs₂) = finishOf (finishOf now qs₁) qs₂ := by
  induction qs₁ generalizing now with
  | nil => rfl
  | cons q qs₁ ih => exact ih q.finish

end Append

/-- What surrounds a run.  Everything may depend on what was seen of the run so far and on the moment
of the clock: which devices are connected, what happens to a call, and after how long a pause is
continued, if ever. -/
structure Scene where
  hasAny : List Passage → Nat → Bool
  isConnected : List Passage → Nat → String → Bool
  handle : List Passage → Nat → Request → Handling
  patience : List Passage → Nat → Option Nat

namespace Scene

/-- The passage gets its answer from the scene, which has seen this of the run, and takes the time
that it is due to take. -/
def Gives (s : Scene) (past : List Passage) (q : Passage) : Prop :=
  match q.move with
  | .foundAny a => a = s.hasAny past q.start ∧ q.finish = q.start
  | .foundDevice name a => a = s.isConnected past q.start name ∧ q.finish = q.start
  | .foundStop a => a = false ∧ q.finish = q.start
  | .rested nanos w => w = .due ∧ q.finish = q.start + nanos
  | .called request limit result =>
    ∃ ms, (s.handle past q.start request).limited limit = (some ms, result) ∧
      q.finish = q.start + ms * 1000000
  | .parked w => w = .due ∧ ∃ nanos, s.patience past q.start = some nanos ∧
      q.finish = q.start + nanos
  | .told _ | .armed | .disarmed => q.finish = q.start

instance (s : Scene) (past : List Passage) : DecidablePred (s.Gives past)
  | ⟨.foundAny a, start, finish⟩ =>
    inferInstanceAs (Decidable (a = s.hasAny past start ∧ finish = start))
  | ⟨.foundDevice name a, start, finish⟩ =>
    inferInstanceAs (Decidable (a = s.isConnected past start name ∧ finish = start))
  | ⟨.foundStop a, start, finish⟩ => inferInstanceAs (Decidable (a = false ∧ finish = start))
  | ⟨.rested nanos w, start, finish⟩ =>
    inferInstanceAs (Decidable (w = .due ∧ finish = start + nanos))
  | ⟨.called request limit result, start, finish⟩ =>
    decidable_of_iff (((s.handle past start request).limited limit).1.any
        (fun ms => finish = start + ms * 1000000) ∧
        ((s.handle past start request).limited limit).2 = result) <| by
      simp only [Gives, Option.any_eq_true, decide_eq_true_eq, Prod.ext_iff]
      grind
  | ⟨.parked w, start, finish⟩ =>
    decidable_of_iff (w = .due ∧
        (s.patience past start).any fun nanos => finish = start + nanos) <| by
      simp [Gives, Option.any_eq_true]
  | ⟨.told _, start, finish⟩ | ⟨.armed, start, finish⟩ | ⟨.disarmed, start, finish⟩ =>
    inferInstanceAs (Decidable (finish = start))

/-- Passages one after the other, the first of which begins now. -/
def Times (s : Scene) : List Passage → Nat → List Passage → Prop
  | _, _, [] => True
  | past, now, q :: qs =>
    q.start = now ∧ s.Gives past q ∧ s.Times (past ++ encountersOf [q]) q.finish qs

instance decidableTimes (s : Scene) : ∀ past now qs, Decidable (s.Times past now qs)
  | _, _, [] => .isTrue trivial
  | past, now, q :: qs =>
    have := decidableTimes s (past ++ encountersOf [q]) q.finish qs
    inferInstanceAs (Decidable (q.start = now ∧ s.Gives past q ∧
      s.Times (past ++ encountersOf [q]) q.finish qs))

/-- The course does not go on: there is no move that can be made now. -/
def IsStuck (s : Scene) (past : List Passage) (now : Nat) (c : Course) : Prop :=
  ∀ q c', Moves c q.move c' → q.start = now → ¬ s.Gives past q

/-- A run that goes along the course from now on, for as long as it can, the scene having seen this of
it; `c'` is what is left of the course. -/
structure WholeRun (s : Scene) (past : List Passage) (now : Nat) (c : Course) (qs : List Passage)
    (c' : Course) : Prop where
  trace : Trace c (movesOf qs) c'
  times : s.Times past now qs
  stuck : s.IsStuck (past ++ encountersOf qs) (finishOf now qs) c'

variable {s : Scene} {past : List Passage} {now : Nat} {qs qs₁ qs₂ : List Passage} {q q' : Passage}
  {c c₁ c₂ d : Course}

theorem times_append : s.Times past now (qs₁ ++ qs₂) ↔
    s.Times past now qs₁ ∧ s.Times (past ++ encountersOf qs₁) (finishOf now qs₁) qs₂ := by
  induction qs₁ generalizing past now with
  | nil => simp [Times, encountersOf, finishOf]
  | cons q qs₁ ih =>
    have hpast : past ++ encountersOf (q :: qs₁) =
        past ++ encountersOf [q] ++ encountersOf qs₁ := by
      rw [List.append_assoc, ← encountersOf_append]
      rfl
    rw [List.cons_append, Times, ih, hpast, Times, finishOf]
    simp only [and_assoc]

/-- A passage that gets its answer does not end before it begins. -/
theorem Gives.start_le (h : s.Gives past q) : q.start ≤ q.finish := by
  unfold Gives at h
  split at h
  · exact h.2.ge
  · exact h.2.ge
  · exact h.2.ge
  · exact h.2 ▸ Nat.le_add_right _ _
  · obtain ⟨ms, -, hf⟩ := h
    exact hf ▸ Nat.le_add_right _ _
  · obtain ⟨-, nanos, -, hf⟩ := h
    exact hf ▸ Nat.le_add_right _ _
  all_goals exact h.ge

/-- A run that has ended does not go on. -/
theorem isStuck_ended {r : Except Refusal RunOutcome} : s.IsStuck past now (.ended r) :=
  fun _ _ hm => nomatch hm

/-- A run does not go on that waits for a reply that never comes. -/
theorem isStuck_call {request : Request} {limit : Option Nat} {next : Option CallResult → Course}
    (h : ((s.handle past now request).limited limit).1 = none) :
    s.IsStuck past now (.call request limit next) := by
  rintro ⟨_, start, finish⟩ c' hm rfl hg
  cases hm
  obtain ⟨ms, hl, -⟩ := hg
  rw [hl] at h
  cases h

/-- A run does not go on that waits for a continue that never comes. -/
theorem isStuck_park {next : Wake → Course} (h : s.patience past now = none) :
    s.IsStuck past now (.park next) := by
  rintro ⟨_, start, finish⟩ c' hm rfl hg
  cases hm
  obtain ⟨-, nanos, hp, -⟩ := hg
  rw [h] at hp
  cases hp

/-- **What keeps a run from going on**: it has ended, or it waits for a reply or for a continue that
never comes. -/
theorem IsStuck.cases (h : s.IsStuck past now c) :
    (∃ r, c = .ended r) ∨
      (∃ request limit next, c = .call request limit next ∧
        ((s.handle past now request).limited limit).1 = none) ∨
      ∃ next, c = .park next ∧ s.patience past now = none := by
  cases c with
  | ended r => exact .inl ⟨r, rfl⟩
  | tell n _ => exact absurd rfl (h ⟨.told n, now, now⟩ _ .tell rfl)
  | askAny _ =>
    exact absurd ⟨rfl, rfl⟩ (h ⟨.foundAny (s.hasAny past now), now, now⟩ _ (.askAny _) rfl)
  | askDevice name _ =>
    exact absurd ⟨rfl, rfl⟩
      (h ⟨.foundDevice name (s.isConnected past now name), now, now⟩ _ (.askDevice _) rfl)
  | askStop _ => exact absurd ⟨rfl, rfl⟩ (h ⟨.foundStop false, now, now⟩ _ (.askStop _) rfl)
  | rest nanos _ =>
    exact absurd ⟨rfl, rfl⟩ (h ⟨.rested nanos .due, now, now + nanos⟩ _ (.rest _) rfl)
  | call request limit next =>
    cases hl : (s.handle past now request).limited limit with
    | mk t result =>
      cases t with
      | none => exact .inr (.inl ⟨request, limit, next, rfl, by rw [hl]⟩)
      | some ms =>
        exact absurd ⟨ms, hl, rfl⟩
          (h ⟨.called request limit result, now, now + ms * 1000000⟩ _ (.call _) rfl)
  | arm _ => exact absurd rfl (h ⟨.armed, now, now⟩ _ .arm rfl)
  | park next =>
    cases hw : s.patience past now with
    | none => exact .inr (.inr ⟨next, rfl, rfl⟩)
    | some nanos =>
      exact absurd ⟨rfl, nanos, hw, rfl⟩ (h ⟨.parked .due, now, now + nanos⟩ _ (.park _) rfl)
  | disarm _ => exact absurd rfl (h ⟨.disarmed, now, now⟩ _ .disarm rfl)

/-- **Every course has a whole run.**  By induction along the course: if it is not stuck at once, one
move leads on. -/
theorem exists_wholeRun (s : Scene) (c : Course) : ∀ (past : List Passage) (now : Nat),
    ∃ qs c', s.WholeRun past now c qs c' := by
  induction c using Course.induction_on_moves with
  | step c ih =>
    intro past now
    by_cases hstuck : s.IsStuck past now c
    · exact ⟨[], c, .nil c, trivial, by simpa [encountersOf, finishOf] using hstuck⟩
    · simp only [IsStuck, not_forall, not_not] at hstuck
      obtain ⟨q, c', hm, hq, hg⟩ := hstuck
      obtain ⟨qs, c'', h⟩ := ih hm (past ++ encountersOf [q]) q.finish
      have hend := h.stuck
      rw [List.append_assoc, ← encountersOf_append] at hend
      exact ⟨q :: qs, c'', .cons hm h.trace, ⟨hq, hg, h.times⟩, hend⟩

/-- **A scene leaves a run no choice.** -/
theorem Gives.unique (hg : s.Gives past q) (hg' : s.Gives past q') (hq : q.start = q'.start)
    (hm : Moves c q.move c₁) (hm' : Moves c q'.move c₂) : q = q' ∧ c₁ = c₂ := by
  obtain ⟨m, start, finish⟩ := q
  obtain ⟨m', start', finish'⟩ := q'
  obtain rfl : start = start' := hq
  cases hm with
  | tell | arm | disarm =>
    cases hm'
    obtain rfl : finish = start := hg
    obtain rfl : finish' = finish := hg'
    exact ⟨rfl, rfl⟩
  | askAny | askDevice | askStop | rest =>
    cases hm'
    dsimp only [Gives] at hg hg'
    obtain ⟨rfl, rfl⟩ := hg
    obtain ⟨rfl, rfl⟩ := hg'
    exact ⟨rfl, rfl⟩
  | call =>
    cases hm'
    dsimp only [Gives] at hg hg'
    obtain ⟨ms, hl, rfl⟩ := hg
    obtain ⟨ms', hl', rfl⟩ := hg'
    cases hl.symm.trans hl'
    exact ⟨rfl, rfl⟩
  | park =>
    cases hm'
    dsimp only [Gives] at hg hg'
    obtain ⟨rfl, nanos, hp, rfl⟩ := hg
    obtain ⟨rfl, nanos', hp', rfl⟩ := hg'
    cases hp.symm.trans hp'
    exact ⟨rfl, rfl⟩

/-- A whole run makes the move that it can make. -/
theorem WholeRun.step (h : s.WholeRun past now c qs d) (hm : Moves c q.move c₁) (hq : q.start = now)
    (hg : s.Gives past q) :
    ∃ qs', qs = q :: qs' ∧ s.WholeRun (past ++ encountersOf [q]) q.finish c₁ qs' d := by
  obtain ⟨htrace, htimes, hstuck⟩ := h
  cases qs with
  | nil =>
    cases htrace
    rw [encountersOf, List.filter_nil, List.append_nil] at hstuck
    exact absurd hg (hstuck q c₁ hm hq)
  | cons q' qs =>
    obtain ⟨hq', hg', hrest⟩ := htimes
    cases htrace with
    | cons hm' htrace =>
      obtain ⟨rfl, rfl⟩ := hg'.unique hg (hq'.trans hq.symm) hm' hm
      refine ⟨qs, rfl, htrace, hrest, ?_⟩
      rw [List.append_assoc, ← encountersOf_append]
      exact hstuck

/-- A whole run of a course that is stuck makes no move. -/
theorem WholeRun.eq_nil (h : s.WholeRun past now c qs d) (hs : s.IsStuck past now c) :
    qs = [] ∧ d = c := by
  obtain ⟨htrace, htimes, -⟩ := h
  cases qs with
  | nil =>
    cases htrace
    exact ⟨rfl, rfl⟩
  | cons q qs =>
    cases htrace with
    | cons hm _ => exact absurd htimes.2.1 (hs q _ hm htimes.1)

end Scene

/-! ## 2. Accounts -/

/-- The length of a delay in thousand-millionths of a second; nothing that is not a delay, and no
delay without a length, takes any time of its own. -/
def Instruction.delay : Instruction → Nat
  | .wait seconds => (seconds.bind delayNanos?).getD 0
  | _ => 0

/-- The length of the delay at the line that the cursor shows. -/
def Script.delayAt (s : Script) (cursor : Option Nat) : Nat :=
  ((cursor.bind s.line?).map fun l => (Instruction.classify l).delay).getD 0

/-- The delay at the line of an instruction is the instruction's. -/
theorem Script.delayAt_of_mem {s : Script} {x : Nat × Instruction} (h : x ∈ s.instructions) :
    s.delayAt (some x.1) = x.2.delay := by
  obtain ⟨l, hl, hx⟩ := Script.exists_line_of_mem h
  simp [delayAt, hl, hx]

/-- The time of calls, each with the settling time behind it. -/
def callTime (settle : Nat) (calls : List Passage) : Nat :=
  (calls.map fun q => q.finish - q.start + settle).sum

/-- An account of passages that begin now: they take the time of the delays, `waits`, and of the
calls, each with the settling time behind it, and no call begins before the one before it has
settled. -/
structure Accounted (settle now waits : Nat) (qs : List Passage) : Prop where
  total : finishOf now qs = now + waits + callTime settle (callsOf qs)
  apart : (callsOf qs).Pairwise fun q q' => q.finish + settle ≤ q'.start
  inside : ∀ q ∈ callsOf qs, now ≤ q.start ∧ q.finish + settle ≤ finishOf now qs

section Accounted

variable {settle now w w₁ w₂ : Nat} {q : Passage} {qs qs₁ qs₂ : List Passage}

/-- Passages without a call. -/
theorem Accounted.of_no_call (hw : finishOf now qs = now + w) (hc : callsOf qs = []) :
    Accounted settle now w qs where
  total := by rw [hw, hc]; rfl
  apart := hc ▸ List.Pairwise.nil
  inside := by simp [hc]

/-- A call and the settling time behind it. -/
theorem Accounted.of_call (hle : q.start ≤ q.finish) (hq : callsOf [q] = [q])
    (hs : finishOf q.finish qs = q.finish + settle) (hc : callsOf qs = []) :
    Accounted settle q.start 0 (q :: qs) := by
  have hcalls : callsOf (q :: qs) = [q] := by
    rw [← List.singleton_append, callsOf_append, hq, hc, List.append_nil]
  have hfinish : finishOf q.start (q :: qs) = q.finish + settle := hs
  refine ⟨?_, ?_, ?_⟩
  · rw [hfinish, hcalls]
    simp only [callTime, List.map_cons, List.map_nil, List.sum_cons, List.sum_nil]
    omega
  · rw [hcalls]
    exact List.pairwise_singleton _ _
  · rw [hcalls, hfinish]
    simp

/-- **Accounts add up.** -/
theorem Accounted.append (h₁ : Accounted settle now w₁ qs₁)
    (h₂ : Accounted settle (finishOf now qs₁) w₂ qs₂) :
    Accounted settle now (w₁ + w₂) (qs₁ ++ qs₂) := by
  have hnow : now ≤ finishOf now qs₁ := by
    have := h₁.total
    omega
  have hthen : finishOf now qs₁ ≤ finishOf (finishOf now qs₁) qs₂ := by
    have := h₂.total
    omega
  refine ⟨?_, ?_, ?_⟩
  · have htime : callTime settle (callsOf (qs₁ ++ qs₂)) =
        callTime settle (callsOf qs₁) + callTime settle (callsOf qs₂) := by
      rw [callsOf_append, callTime, List.map_append, List.sum_append]
      rfl
    rw [finishOf_append, h₂.total, h₁.total, htime]
    omega
  · rw [callsOf_append]
    refine List.pairwise_append.mpr ⟨h₁.apart, h₂.apart, fun q hq q' hq' => ?_⟩
    exact (h₁.inside q hq).2.trans (h₂.inside q' hq').1
  · intro q hq
    rw [callsOf_append] at hq
    rw [finishOf_append]
    rcases List.mem_append.mp hq with hq | hq
    · exact ⟨(h₁.inside q hq).1, (h₁.inside q hq).2.trans hthen⟩
    · exact ⟨hnow.trans (h₂.inside q hq).1, (h₂.inside q hq).2⟩

end Accounted

/-! ## 3. The account of a run -/

variable {p : Plan} {last : Option Nat} {line : Nat} {i : Instruction} {cur : Option Nat}
  {items : List (Nat × Instruction)} {ms : List Move} {st : Step} {o : RunOutcome}

/-- A run that goes on by itself does at a line what the line asks for, and no more. -/
theorem Plan.LineMoves.perform (h : p.LineMoves last line i ms st)
    (hm : p.mode = .continuous) : p.PerformMoves line i ms st := by
  cases h with
  | plain hp _ => exact hp
  | paused _ hp _ => simp [Plan.pausesAfter, hm] at hp

namespace Scene

variable {s : Scene} {past : List Passage} {now : Nat} {q : Passage} {qs : List Passage}

/-- Only what suspends a run takes time. -/
theorem Gives.finish_eq (h : s.Gives past q) (hq : q.move.isSuspension = false) :
    q.finish = q.start := by
  unfold Gives at h
  split at h
  · exact h.2
  · exact h.2
  · exact h.2
  · rename_i hm
    simp [hm, Move.isSuspension] at hq
  · rename_i hm
    simp [hm, Move.isSuspension] at hq
  · rename_i hm
    simp [hm, Move.isSuspension] at hq
  all_goals exact h

/-- No call is made where a run is not suspended. -/
theorem callsOf_eq_nil (h : ∀ m ∈ movesOf qs, m.isSuspension = false) : callsOf qs = [] := by
  refine List.filter_eq_nil_iff.mpr fun q hq hcall => ?_
  have hm := h q.move (List.mem_map_of_mem hq)
  split at hcall
  · rename_i hcalled
    simp [hcalled, Move.isSuspension] at hm
  · cases hcall

/-- Where a run is never suspended, no time passes. -/
theorem Times.finishOf_eq (h : s.Times past now qs)
    (hq : ∀ m ∈ movesOf qs, m.isSuspension = false) : finishOf now qs = now := by
  induction qs generalizing past now with
  | nil => rfl
  | cons q qs ih =>
    obtain ⟨rfl, hg, htimes⟩ := h
    obtain ⟨hm, hms⟩ := List.forall_mem_cons.mp hq
    rw [← hg.finish_eq hm]
    exact ih htimes hms

/-- The account of passages in which the run is never suspended. -/
theorem Times.accounted_instant {settle : Nat} (h : s.Times past now qs)
    (hq : ∀ m ∈ movesOf qs, m.isSuspension = false) : Accounted settle now 0 qs :=
  .of_no_call (h.finishOf_eq hq) (callsOf_eq_nil hq)

/-- A rest takes its time, and nothing is called in it. -/
theorem Times.rest {nanos : Nat} (h : s.Times past now qs) (hr : RestMoves nanos (movesOf qs) st) :
    finishOf now qs = now + nanos ∧ callsOf qs = [] := by
  obtain ⟨ms, hms⟩ : ∃ ms, movesOf qs = ms := ⟨_, rfl⟩
  rw [hms] at hr
  cases hr with
  | atOnce hn stop =>
    have hidle : ∀ m ∈ movesOf qs, m.isSuspension = false := by simp [hms, Move.isSuspension]
    exact ⟨by rw [h.finishOf_eq hidle, hn, Nat.add_zero], callsOf_eq_nil hidle⟩
  | later _ w =>
    obtain ⟨⟨_, start, finish⟩, rfl, rfl⟩ := List.map_eq_singleton_iff.mp hms
    obtain ⟨rfl, ⟨-, hf⟩, -⟩ := h
    exact ⟨hf, rfl⟩

/-- **The account of an instruction**: it takes the time of its delay, or of its call. -/
theorem Times.accounted_perform (h : s.Times past now qs)
    (hp : p.PerformMoves line i (movesOf qs) st) :
    Accounted (p.timing.settle * 1000000) now i.delay qs := by
  obtain ⟨ms, hms⟩ : ∃ ms, movesOf qs = ms := ⟨_, rfl⟩
  rw [hms] at hp
  cases hp with
  | @waited seconds nanos ms _ hd hr =>
    subst hms
    obtain ⟨hf, hc⟩ := h.rest hr
    have hdelay : (Instruction.wait seconds).delay = nanos := by
      rw [Instruction.delay, hd, Option.getD_some]
    exact hdelay ▸ .of_no_call hf hc
  | @malformed seconds hd =>
    have hdelay : (Instruction.wait seconds).delay = 0 := by
      rw [Instruction.delay, hd, Option.getD_none]
    exact hdelay ▸ h.accounted_instant (by simp [hms, Move.isSuspension])
  | unconnected | skipped => exact h.accounted_instant (by simp [hms, Move.isSuspension])
  | sent c result hr =>
    obtain ⟨q₁, _, rfl, hm₁, hms⟩ := List.map_eq_cons_iff.mp hms
    obtain ⟨q₂, _, rfl, hm₂, hms⟩ := List.map_eq_cons_iff.mp hms
    obtain ⟨q, _, rfl, hm, hms⟩ := List.map_eq_cons_iff.mp hms
    obtain ⟨q₃, qs, rfl, hm₃, rfl⟩ := List.map_eq_cons_iff.mp hms
    have hcut : s.Times past now ([q₁, q₂] ++ (q :: ([q₃] ++ qs))) := h
    obtain ⟨hasked, hq, hg, hcalled⟩ := times_append.mp hcut
    obtain ⟨hlogged, hsettled⟩ := times_append.mp hcalled
    obtain ⟨hf, hc⟩ := hsettled.rest hr
    have hidle : ∀ m ∈ movesOf [q₃], m.isSuspension = false := by
      simp [movesOf, hm₃, Move.isSuspension]
    have hcall : callsOf [q] = [q] := by simp [callsOf, hm]
    have hbusy : Accounted (p.timing.settle * 1000000) q.start 0 (q :: ([q₃] ++ qs)) := by
      refine .of_call hg.start_le hcall ?_ ?_
      · rw [finishOf_append, hf, hlogged.finishOf_eq hidle]
      · rw [callsOf_append, callsOf_eq_nil hidle, hc]
        rfl
    exact (hasked.accounted_instant (by simp [movesOf, hm₁, hm₂, Move.isSuspension])).append
      (hq ▸ hbusy)

/-- The end of a run takes no time, and shows no line with a delay. -/
theorem Times.accounted_closing {settle : Nat} {script : Script} (h : s.Times past now qs)
    (hq : movesOf qs = closingMoves cur o) :
    Accounted settle now ((cursorsOf (closingMoves cur o)).map script.delayAt).sum qs := by
  have hidle : ∀ m ∈ movesOf qs, m.isSuspension = false := by
    rw [hq, closingMoves]
    simp [Move.isSuspension]
  have hnone : ((cursorsOf (closingMoves cur o)).map script.delayAt).sum = 0 := by
    rw [cursorsOf_closingMoves, leaving]
    split <;> rfl
  exact hnone ▸ h.accounted_instant hidle

/-- The account from where a run comes to a line: the line first, and then what is behind it. -/
theorem Times.accounted_line {w : Nat} {ms' : List Move} (h : s.Times past now qs)
    (hms : movesOf qs = .foundStop false :: .told (.cursor (some line)) :: (ms ++ ms'))
    (hp : p.PerformMoves line i ms st)
    (hrest : ∀ {past now qs}, s.Times past now qs → movesOf qs = ms' →
      Accounted (p.timing.settle * 1000000) now w qs) :
    Accounted (p.timing.settle * 1000000) now (i.delay + w) qs := by
  obtain ⟨q₁, _, rfl, hm₁, hms⟩ := List.map_eq_cons_iff.mp hms
  obtain ⟨q₂, _, rfl, hm₂, hms⟩ := List.map_eq_cons_iff.mp hms
  obtain ⟨qs, qs', rfl, rfl, hms'⟩ := List.map_eq_append_iff.mp hms
  have hcut : s.Times past now ([q₁, q₂] ++ (qs ++ qs')) := h
  obtain ⟨hcame, hthere⟩ := times_append.mp hcut
  obtain ⟨hdone, hbehind⟩ := times_append.mp hthere
  have hacc := (hdone.accounted_perform hp).append (hrest hbehind hms')
  rw [← Nat.zero_add (i.delay + w)]
  exact (hcame.accounted_instant (by simp [movesOf, hm₁, hm₂, Move.isSuspension])).append hacc

/-- **The account of the lines.**  By induction on the lines that the run takes. -/
theorem Times.accounted_lines (hm : p.mode = .continuous) (hr : p.RunMoves last items cur ms o)
    (hd : ∀ x ∈ items, p.script.delayAt (some x.1) = x.2.delay) (h : s.Times past now qs)
    (hms : movesOf qs = ms) :
    Accounted (p.timing.settle * 1000000) now ((cursorsOf ms).map p.script.delayAt).sum qs := by
  have hsum : ∀ (line : Nat) (ms : List Move), ((cursorsOf
      (.foundStop false :: .told (.cursor (some line)) :: ms)).map p.script.delayAt).sum =
        p.script.delayAt (some line) + ((cursorsOf ms).map p.script.delayAt).sum :=
    fun _ _ => rfl
  induction hr generalizing past now qs with
  | completed => exact h.accounted_closing hms
  | stopped =>
    obtain ⟨q, _, rfl, hq, -⟩ := List.map_eq_cons_iff.mp hms
    obtain ⟨-, hg, -⟩ := h
    rw [Gives, hq] at hg
    cases hg.1
  | passedOver _ _ ih =>
    obtain ⟨q, qs, rfl, hq, hms⟩ := List.map_eq_cons_iff.mp hms
    have hcut : s.Times past now ([q] ++ qs) := h
    obtain ⟨hpassed, hbehind⟩ := times_append.mp hcut
    have hidle : ∀ m ∈ movesOf [q], m.isSuspension = false := by
      simp [movesOf, hq, Move.isSuspension]
    exact Nat.zero_add ((cursorsOf _).map p.script.delayAt).sum ▸
      (hpassed.accounted_instant hidle).append (ih (fun x hx => hd x (.tail _ hx)) hbehind hms)
  | @taken line i more cur ms ms' o hi hl _ ih =>
    obtain ⟨hdelay, hd⟩ := List.forall_mem_cons.mp hd
    rw [hsum, cursorsOf_append, hl.cursorsOf_eq, hdelay]
    exact h.accounted_line hms (hl.perform hm) fun h hms => ih hd h hms
  | @broken line i more cur ms st o hi hl ho =>
    obtain ⟨hdelay, -⟩ := List.forall_mem_cons.mp hd
    rw [hsum, cursorsOf_append, hl.cursorsOf_eq, hdelay]
    exact h.accounted_line hms (hl.perform hm) fun h hms => h.accounted_closing hms

end Scene

/-! ## 4. Runs that go on by themselves -/

/-- The time after which a call is answered or given up. -/
def Handling.within (limit : Nat) : Handling → Nat
  | .after ms _ => min ms limit
  | .never => limit

/-- The answer to a call, if it comes in time; one that comes at the last moment does. -/
def Handling.answerWithin? (limit : Nat) : Handling → Option CallResult
  | .after ms result => if ms ≤ limit then some result else none
  | .never => none

theorem Handling.limited_some (h : Handling) (limit : Nat) :
    h.limited (some limit) = (some (h.within limit), h.answerWithin? limit) := by
  cases h with
  | never => rfl
  | after ms result =>
    by_cases hms : ms ≤ limit
    · simp [limited, within, answerWithin?, hms]
    · simp [limited, within, answerWithin?, hms, Nat.le_of_not_le hms]

theorem Handling.within_le (h : Handling) (limit : Nat) : h.within limit ≤ limit := by
  cases h with
  | never => exact Nat.le_refl limit
  | after ms result => exact Nat.min_le_right ms limit

/-- **The calls of a run are limited as the run says.** -/
theorem Plan.limit_of_called {request : Request} {limit : Option Nat} {result : Option CallResult}
    {ms' : List Move} {r : Except Refusal RunOutcome}
    (h : Trace p.course (ms ++ .called request limit result :: ms') (.ended r)) :
    limit = p.timing.limit := by
  rcases Plan.runMoves_of_trace h with ⟨he, -⟩ | ⟨o, _, -, he, hr⟩
  · obtain ⟨between, -, he⟩ := exists_behind [] (by simp) he.symm
    exact absurd he (Plan.ne_of_isOfLine (by simp [Move.isOfLine]))
  · obtain ⟨between, -, he⟩ := exists_behind p.openingMoves (by simp [Plan.openingMoves]) he.symm
    obtain ⟨-, -, -, -, -, hlimit, -⟩ := hr.call_eq he
    exact hlimit

/-- A run that goes on by itself never waits for a continue. -/
theorem Plan.not_trace_park {next : Wake → Course} (hm : p.mode = .continuous) :
    ¬ Trace p.course ms (.park next) := by
  intro h
  obtain ⟨ms', r, h'⟩ := (next .due).exists_trace
  rcases Plan.runMoves_of_trace (h.append (.cons (.park .due) h')) with ⟨he, -⟩ | ⟨o, _, -, he, hr⟩
  · have hmem : Move.parked .due ∈ [Move.foundAny false] := he ▸ List.mem_append_cons_self
    simp at hmem
  · obtain ⟨between, -, rfl⟩ := exists_behind p.openingMoves (by simp [Plan.openingMoves]) he.symm
    exact Bool.false_ne_true (hr.isOfPause_eq hm (.parked .due) List.mem_append_cons_self).symm

/-- **A run that goes on by itself and limits its calls never waits for ever.** -/
theorem Scene.WholeRun.exists_ended {s : Scene} {start limit : Nat} {qs : List Passage} {c : Course}
    (h : s.WholeRun [] start p.course qs c) (hm : p.mode = .continuous)
    (hl : p.timing.limit = some limit) : ∃ r, c = .ended r := by
  rcases h.stuck.cases with hended | ⟨request, most, next, rfl, hnone⟩ | ⟨next, rfl, -⟩
  · exact hended
  · obtain ⟨ms', r, h'⟩ := (next none).exists_trace
    rw [Plan.limit_of_called (h.trace.append (.cons (.call none) h')), hl,
      Handling.limited_some] at hnone
    cases hnone
  · exact absurd h.trace (Plan.not_trace_park hm)

/-- The account of a whole run that has ended. -/
theorem Scene.WholeRun.accounted {s : Scene} {start : Nat} {qs : List Passage}
    {r : Except Refusal RunOutcome} (h : s.WholeRun [] start p.course qs (.ended r))
    (hm : p.mode = .continuous) :
    Accounted (p.timing.settle * 1000000) start
      ((cursorsOf (movesOf qs)).map p.script.delayAt).sum qs := by
  rcases Plan.runMoves_of_trace h.trace with ⟨hms, -⟩ | ⟨o, ms', -, hms, hr⟩
  · rw [hms]
    exact h.times.accounted_instant (by simp [hms, Move.isSuspension])
  · rw [hms]
    obtain ⟨qs, qs', rfl, hopening, hlines⟩ := List.map_eq_append_iff.mp hms
    obtain ⟨hopened, hbehind⟩ := Scene.times_append.mp h.times
    have hidle : ∀ m ∈ movesOf qs, m.isSuspension = false := by
      simp [movesOf, hopening, Plan.openingMoves, Move.isSuspension]
    exact Nat.zero_add ((cursorsOf ms').map p.script.delayAt).sum ▸
      (hopened.accounted_instant hidle).append
        (hbehind.accounted_lines hm hr (fun _ => Script.delayAt_of_mem) hlines)

/-- **The time that a run takes.**  For every script and every scene, whatever its devices and its
gateway do and whenever it begins: a run that goes on by itself, is asked for no stop and sets its
calls a limit has a whole run, and each whole run has ended.  Each of its calls takes the time of the
reply or the limit, whichever is less, and so at most the limit, and gets the reply if it comes by
then.  No call begins before the one before it is over and the settling time has passed.  The run
takes exactly the time of the delays at the lines that it came to and, for each call, that of the
call and the settling time. -/
theorem time_of_continuous_run {p : Plan} {limit : Nat} (s : Scene) (start : Nat)
    (hm : p.mode = .continuous) (hl : p.timing.limit = some limit) :
    (∃ qs c, s.WholeRun [] start p.course qs c) ∧
      ∀ qs c, s.WholeRun [] start p.course qs c →
        (∃ r, c = .ended r) ∧
        (∀ before q after request most result, qs = before ++ q :: after →
          q.move = .called request most result →
          q.finish = q.start +
              (s.handle (encountersOf before) q.start request).within limit * 1000000 ∧
            q.finish ≤ q.start + limit * 1000000 ∧
            result = (s.handle (encountersOf before) q.start request).answerWithin? limit) ∧
        (callsOf qs).Pairwise (fun q q' =>
          q.finish + p.timing.settle * 1000000 ≤ q'.start) ∧
        finishOf start qs = start + ((cursorsOf (movesOf qs)).map p.script.delayAt).sum +
          ((callsOf qs).map fun q => q.finish - q.start + p.timing.settle * 1000000).sum := by
  refine ⟨s.exists_wholeRun p.course [] start, fun qs c h => ?_⟩
  obtain ⟨r, rfl⟩ := h.exists_ended hm hl
  have hacc := h.accounted hm
  refine ⟨⟨r, rfl⟩, ?_, hacc.apart, hacc.total⟩
  rintro before q after request most result rfl hq
  obtain ⟨-, -, hg, -⟩ := Scene.times_append.mp h.times
  have htrace := h.trace
  have hcalled : movesOf (q :: after) = .called request most result :: movesOf after := by
    rw [movesOf, List.map_cons, hq, movesOf]
  rw [movesOf_append, hcalled] at htrace
  rw [List.nil_append, Scene.Gives, hq] at hg
  obtain ⟨ms, hms, hf⟩ := hg
  rw [Plan.limit_of_called htrace, hl, Handling.limited_some] at hms
  obtain ⟨rfl, rfl⟩ : _ = ms ∧ _ = result := by simpa using hms
  refine ⟨hf, ?_, rfl⟩
  rw [hf]
  exact Nat.add_le_add_left (Nat.mul_le_mul_right _ (Handling.within_le _ limit)) _

/-- A command that is answered, a delay, and a command that is not answered. -/
def timedPlan : Plan :=
  ⟨⟨none, ["alpha.home", "wait 2", "# next", "bravo.home"]⟩, .continuous,
    { settle := 100, limit := some 1000 }⟩

/-- A scene in which `alpha` acknowledges a command after 300 ms and nobody else answers. -/
def slowScene : Scene where
  hasAny _ _ := true
  isConnected _ _ _ := true
  handle _ _ request := if request.device = "alpha" then .after 300 (.replied .ok) else .never
  patience _ _ := none

/-- Moves one after the other by a clock, the first of which begins now; `long` says how long each
takes. -/
def passagesFrom (long : Move → Nat) : Nat → List Move → List Passage
  | _, [] => []
  | now, m :: ms => ⟨m, now, now + long m⟩ :: passagesFrom long (now + long m) ms

/-- A run of `timedPlan` in `slowScene`, by a clock that shows zero when it begins. -/
def timedPassages : List Passage :=
  passagesFrom
    (fun
      | .called request .. => if request.device = "alpha" then 300000000 else 1000000000
      | .rested nanos _ => nanos
      | _ => 0)
    0 <|
  timedPlan.openingMoves ++
    [.foundStop false, .told (.cursor (some 0)), .foundDevice "alpha" true,
      .told (.log (sentEntry ⟨"alpha", "home", ""⟩ 0)),
      .called ⟨"alpha", "home"⟩ (some 1000) (some (.replied .ok)),
      .told (.log (resultEntry ⟨"alpha", "home", ""⟩ 0 (some 1000) (some (.replied .ok)))),
      .rested 100000000 .due, .foundStop false, .told (.cursor (some 1)),
      .rested 2000000000 .due, .foundStop false, .foundStop false, .told (.cursor (some 3)),
      .foundDevice "bravo" true, .told (.log (sentEntry ⟨"bravo", "home", ""⟩ 3)),
      .called ⟨"bravo", "home"⟩ (some 1000) none,
      .told (.log (resultEntry ⟨"bravo", "home", ""⟩ 3 (some 1000) none)),
      .rested 100000000 .due] ++
    closingMoves (some 3) .completed

theorem time_of_timedPlan :
    timedPlan.mode = .continuous ∧ timedPlan.timing.limit = some 1000 ∧
      slowScene.WholeRun [] 0 timedPlan.course timedPassages (.ended (.ok .completed)) ∧
      finishOf 0 timedPassages = 2000000000 + (300000000 + 100000000) + (1000000000 + 100000000) := by
  have h : slowScene.WholeRun [] 0 timedPlan.course timedPassages (.ended (.ok .completed)) :=
    ⟨trace_of_resultAfter? (by decide +kernel), by decide +kernel, Scene.isStuck_ended⟩
  obtain ⟨-, -, -, htime⟩ := (time_of_continuous_run slowScene 0 rfl rfl).2 _ _ h
  refine ⟨rfl, rfl, h, htime.trans ?_⟩
  decide +kernel

end DeviceScript
