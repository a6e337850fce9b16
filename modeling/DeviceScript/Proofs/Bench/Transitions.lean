import DeviceScript.Proofs.Bench.Resets
/-!
# The states that are told

A run follows the table of states and begins idle, but an audience hears the states of all runs in a
row, with those of resets in between, and nothing checks the seams.  Here it is settled what a
member hears of states over any history, when no listener ever crashes.

Each state is read with the run that told it, or without one if a reset did (`StateTold`).  What was
told is in succession (`InSuccession`): within a run by the table, a new run after one that has
ended or been reset, and idle after the end of a run.  There is one thing that the table does not
allow.  A listener that resets the runner while it is told that a reset leaves the line does so
before the runner is idle, and then idle is told twice.

The induction is on the turns.  What carries it is that the states told so far are those of runs
that have ended and of resets, with those of the run that is going behind them (`Bench.HasTold`).
-/

namespace DeviceScript

/-! ## 1. One state after another -/

/-- A state that was told, in the course of this run or, without one, by a reset. -/
structure StateTold where
  run : Option Nat
  state : RunState
  deriving Repr, DecidableEq

/-- The states that this member heard of according to these lines of a journal, each with the run
that was followed when it was written. -/
def statesTold (member : Nat) (lines : List (Option Nat × (Nat × Happening))) : List StateTold :=
  lines.filterMap fun (run, line) => (heardIn member line).bind fun n => n.state?.map (⟨run, ·⟩)

/-- Only the end of a run may be followed by idle. -/
theorem RunState.isTerminal_of_mayBecome_idle {s : RunState} (h : s.mayBecome .idle = true) :
    s.isTerminal = true := by
  cases s <;> first | rfl | cases h

namespace StateTold

/-- The state before anything was told.  Resets tell it too. -/
def idle : StateTold :=
  ⟨none, .idle⟩

/-- **How one state is told after another.** The table allows the step, or a new run begins where an
earlier one has ended.  Nothing comes after the end of a run within it, and a reset only after the
end of a run. -/
structure Precedes (x y : StateTold) : Prop where
  allowed : x.state.become? y.state = .ok y.state ∨
    x.state.isTerminal = true ∧ y.state = .running ∧
      ∃ run, y.run = some run ∧ ∀ earlier, x.run = some earlier → earlier < run
  within : y.run = x.run → x.state.isTerminal = false
  reset : y.run = none → x.run ≠ none ∧ x.state.isTerminal = true

variable {x : StateTold} {run : Nat} {s t : RunState}

theorem precedes_within (h : s.become? t = .ok t) (hs : s.isTerminal = false) :
    Precedes ⟨some run, s⟩ ⟨some run, t⟩ where
  allowed := .inl h
  within _ := hs
  reset := nofun

theorem precedes_running (hx : x.state.isActive = false)
    (hrun : ∀ earlier, x.run = some earlier → earlier < run) :
    x.Precedes ⟨some run, .running⟩ where
  allowed := by
    rcases RunState.eq_idle_or_isTerminal hx with h | h
    · rw [h]
      exact .inl rfl
    · exact .inr ⟨h, rfl, run, rfl, hrun⟩
  within h := absurd (hrun run h.symm) (Nat.lt_irrefl run)
  reset := nofun

theorem precedes_idle (hx : x.state.isTerminal = true) (hrun : x.run ≠ none) :
    x.Precedes .idle where
  allowed := by
    left
    revert hx
    cases x.state <;> first | exact fun _ => rfl | exact nofun
  within h := absurd h.symm hrun
  reset _ := ⟨hrun, hx⟩

end StateTold

open StateTold

/-- **The states `l` were told in succession**, while listeners made so many resets.  The first is
running.  Only resets tell idle, and idle is told twice in a row only if a listener made a reset. -/
structure InSuccession (resets : Nat) (l : List StateTold) : Prop where
  first : ∀ x, l.head? = some x → x.state = .running
  chain : List.IsChain (fun x y => x.Precedes y ∨ 0 < resets ∧ x = .idle ∧ y = .idle) (.idle :: l)
  once : l.Pairwise fun x y => x.state.isTerminal = true → y.run ≠ x.run
  idle_iff : ∀ x ∈ l, x.state = .idle ↔ x.run = none

/-! ## 2. The states of a run that goes on -/

/-- In a chain something comes before each element but the first. -/
theorem exists_rel_of_mem {α : Type} {R : α → α → Prop} {y : α} : ∀ {l : List α} {a : α},
    List.IsChain R (a :: l) → y ∈ l → ∃ x, R x y
  | b :: l, a, h, hy => by
    obtain ⟨hab, hrest⟩ := List.isChain_cons_cons.mp h
    rcases List.mem_cons.mp hy with rfl | hy
    · exact ⟨a, hab⟩
    · exact exists_rel_of_mem hrest hy

/-- On the way to its end a run goes on from a state only where it has not ended. -/
theorem LeadsTo.isChain {s : RunState} {ss : List RunState} {o : RunOutcome} (h : LeadsTo s ss o)
    (hs : s.isTerminal = false) :
    List.IsChain (fun s t => s.become? t = .ok t ∧ s.isTerminal = false) (s :: ss) := by
  obtain ⟨init, rfl⟩ := List.getLast?_eq_some_iff.mp h.last
  have hinit : ∀ t ∈ s :: init, t.isTerminal = false := by
    have honce := h.once
    rw [List.filter_append, List.filter_cons_of_pos o.state_isTerminal, List.filter_nil] at honce
    have hnil := List.append_left_eq_self.mp honce
    intro t ht
    rcases List.mem_cons.mp ht with rfl | ht
    · exact hs
    · exact eq_false_of_ne_true (List.filter_eq_nil_iff.mp hnil t ht)
  have hpath := h.path
  rw [← List.cons_append, List.isChain_append] at hpath ⊢
  obtain ⟨hchain, -, hend⟩ := hpath
  refine ⟨hchain.imp_of_mem_imp fun t u ht _ htu => ⟨htu, hinit t ht⟩, .singleton _,
    fun t ht u hu => ⟨hend t ht u hu, hinit t (List.mem_of_getLast? ht)⟩⟩

namespace Plan

variable {p : Plan} {ms : List Move} {c : Course}

/-- **Wherever a run has come to**, its states follow the table, and only the last may be its end.
-/
theorem isChain_statesOf (h : p.course.Trace ms c) :
    List.IsChain (fun s t => s.become? t = .ok t ∧ s.isTerminal = false)
      (.idle :: statesOf ms) := by
  obtain ⟨ms', r, h'⟩ := c.exists_trace
  have hall : List.IsChain (fun s t : RunState => s.become? t = .ok t ∧ s.isTerminal = false)
      (.idle :: statesOf (ms ++ ms')) := by
    rcases runMoves_of_trace (h.append h') with ⟨he, -⟩ | ⟨o, more, -, he, hr⟩
    · rw [he]
      exact .singleton _
    · rw [he]
      have hleads : LeadsTo .idle (statesOf (p.openingMoves ++ more)) o := .cons rfl rfl hr.leadsTo
      exact hleads.isChain rfl
  rw [statesOf_append, ← List.cons_append] at hall
  exact hall.left_of_append

/-- A run never tells that it is idle. -/
theorem ne_idle_of_mem_statesOf (h : p.course.Trace ms c) : ∀ s ∈ statesOf ms, s ≠ .idle := by
  rintro t ht rfl
  obtain ⟨s, hs, hgoing⟩ := exists_rel_of_mem (isChain_statesOf h) ht
  have hterminal := RunState.isTerminal_of_mayBecome_idle (RunState.become?_eq_ok_iff.mp hs).1
  rw [hgoing] at hterminal
  cases hterminal

/-- The first state of a run is running. -/
theorem eq_running_of_head? (h : p.course.Trace ms c) {s : RunState}
    (hs : (statesOf ms).head? = some s) : s = .running := by
  have hidle := ((isChain_statesOf h).rel_head? hs).1
  cases s <;> first | rfl | cases hidle

/-- The end that a run tells of is that of its outcome. -/
theorem state_eq_of_ended {r : Except Refusal RunOutcome} (h : p.course.Trace ms (.ended r)) :
    ∀ s ∈ statesOf ms, s.isTerminal = true → s = (Course.outcomeOf r).state := by
  intro s hs hterminal
  rcases runMoves_of_trace h with ⟨rfl, -⟩ | ⟨o, more, rfl, rfl, hr⟩
  · exact absurd hs List.not_mem_nil
  · have hleads : LeadsTo .idle (statesOf (p.openingMoves ++ more)) o := .cons rfl rfl hr.leadsTo
    have hmem := List.mem_filter.mpr ⟨hs, hterminal⟩
    rw [hleads.once] at hmem
    exact List.mem_singleton.mp hmem

end Plan

/-! ## 3. States told in succession -/

/-- Resets tell idle and no other state. -/
theorem OfResets.filterMap_state? {d : Nat} {ns : List Notice} (h : OfResets d ns) :
    ns.filterMap Notice.state? = List.replicate d .idle := by
  induction h with
  | nil => rfl
  | append _ _ ih ih' => rw [List.filterMap_append, ih, ih', List.replicate_append_replicate]
  | reset _ ih =>
    rw [List.filterMap_cons_none rfl, List.filterMap_append, ih, List.replicate_succ']
    rfl

/-- The state that is told last. -/
theorem getLast?_states {l : List StateTold} {s : RunState}
    (hlast : ((StateTold.idle :: l).map (·.state)).getLast? = some s) (run : Option Nat)
    (ss : List RunState) :
    ((StateTold.idle :: (l ++ ss.map (⟨run, ·⟩))).map (·.state)).getLast? = (s :: ss).getLast? := by
  have hsame : (ss.map (StateTold.mk run)).map (·.state) = ss := by
    rw [List.map_map]
    exact List.map_id ss
  rw [← List.cons_append, List.map_append, List.getLast?_append, hlast, hsame, List.getLast?_cons]
  cases ss.getLast? <;> rfl

namespace InSuccession

variable {resets resets' d run : Nat} {l : List StateTold}

theorem nil : InSuccession 0 [] :=
  ⟨nofun, .singleton _, .nil, fun _ hx => absurd hx List.not_mem_nil⟩

theorem mono (h : InSuccession resets l) (hle : resets ≤ resets') : InSuccession resets' l where
  first := h.first
  chain := h.chain.imp fun _ _ hxy =>
    hxy.imp_right fun ⟨hpos, he⟩ => ⟨Nat.lt_of_lt_of_le hpos hle, he⟩
  once := h.once
  idle_iff := h.idle_iff

/-- **What a run tells comes after what was told before it**, if that has come to rest and was told
by earlier runs. -/
theorem append_run {p : Plan} {ms : List Move} {c : Course} (h : InSuccession resets l)
    (hrest : ∀ x, (StateTold.idle :: l).getLast? = some x → x.state.isActive = false)
    (hrun : ∀ x ∈ l, ∀ earlier, x.run = some earlier → earlier < run)
    (ht : p.course.Trace ms c) :
    InSuccession resets (l ++ (statesOf ms).map (⟨some run, ·⟩)) where
  first x hx := by
    cases l with
    | cons y more => exact h.first x hx
    | nil =>
      obtain ⟨t, hhead, rfl⟩ := Option.map_eq_some_iff.mp (List.head?_map.symm.trans hx)
      exact Plan.eq_running_of_head? ht hhead
  chain := by
    rw [← List.cons_append]
    refine h.chain.append ?_ fun x hx y hy => .inl ?_
    · rw [List.isChain_map]
      exact (Plan.isChain_statesOf ht).tail.imp fun s t hst => .inl (precedes_within hst.1 hst.2)
    · obtain ⟨t, hhead, rfl⟩ := Option.map_eq_some_iff.mp (List.head?_map.symm.trans hy)
      obtain rfl := Plan.eq_running_of_head? ht hhead
      refine precedes_running (hrest x hx) fun earlier hx' => ?_
      rcases List.mem_cons.mp (List.mem_of_getLast? hx) with rfl | hmem
      · cases hx'
      · exact hrun x hmem earlier hx'
  once := by
    refine List.pairwise_append.mpr ⟨h.once, List.pairwise_map.mpr ?_, fun x hx y hy _ hsame => ?_⟩
    · have htrans : Trans (fun s _ : RunState => s.isTerminal = false)
          (fun s _ : RunState => s.isTerminal = false)
          (fun s _ : RunState => s.isTerminal = false) := ⟨fun hs _ => hs⟩
      have hpath := (Plan.isChain_statesOf ht).tail.imp fun _ _ hst => hst.2
      exact hpath.pairwise.imp fun hs hterminal => by
        rw [hs] at hterminal
        cases hterminal
    · obtain ⟨t, -, rfl⟩ := List.mem_map.mp hy
      exact Nat.lt_irrefl run (hrun x hx run hsame.symm)
  idle_iff x hx := by
    rcases List.mem_append.mp hx with hx | hx
    · exact h.idle_iff x hx
    · obtain ⟨s, hs, rfl⟩ := List.mem_map.mp hx
      exact iff_of_false (Plan.ne_idle_of_mem_statesOf ht s hs) nofun

/-- **A reset comes after the end of a run**, and the resets that listeners make meanwhile tell idle
as well. -/
theorem append_resets (h : InSuccession resets l)
    (hlast : ∀ x, (StateTold.idle :: l).getLast? = some x → x.state.isTerminal = true)
    (hd : d ≤ resets) : InSuccession resets (l ++ List.replicate (d + 1) .idle) where
  first x hx := by
    cases l with
    | cons y more => exact h.first x hx
    | nil => cases hlast .idle rfl
  chain := by
    rw [← List.cons_append]
    refine h.chain.append ?_ fun x hx y hy => .inl ?_
    · cases d with
      | zero => exact .singleton _
      | succ d => exact List.isChain_replicate_of_rel _ (.inr ⟨Nat.zero_lt_of_lt hd, rfl, rfl⟩)
    · obtain rfl : StateTold.idle = y := Option.some.inj hy
      have hterminal := hlast x hx
      refine precedes_idle hterminal fun hnone => ?_
      have hidle : x.state = .idle := by
        rcases List.mem_cons.mp (List.mem_of_getLast? hx) with rfl | hmem
        · rfl
        · exact (h.idle_iff x hmem).mpr hnone
      rw [hidle] at hterminal
      cases hterminal
  once := by
    refine List.pairwise_append.mpr ⟨h.once, ?_, fun x hx y hy hterminal hsame => ?_⟩
    · exact List.pairwise_replicate.mpr (.inr nofun)
    · rw [List.eq_of_mem_replicate hy] at hsame
      rw [(h.idle_iff x hx).mpr hsame.symm] at hterminal
      cases hterminal
  idle_iff x hx := by
    rcases List.mem_append.mp hx with hx | hx
    · exact h.idle_iff x hx
    · rw [List.eq_of_mem_replicate hx]
      exact iff_of_true rfl rfl

end InSuccession

namespace Bench

variable {b b' : Bench} {run horizon k : Nat} {p : Plan} {c : Course} {s : Stage} {ms : List Move}
  {l : List StateTold} {t : Turn}

/-! ## 4. What a member has heard -/

/-- What is heard in lines that were written while one run was followed, or none. -/
theorem statesTold_map (k : Nat) (label : Option Nat) (js : List (Nat × Happening)) :
    statesTold k (js.map (label, ·)) =
      ((heardBy k js).filterMap Notice.state?).map (⟨label, ·⟩) := by
  rw [statesTold, heardBy, List.filterMap_map, List.filterMap_filterMap, List.map_filterMap]
  congr 1
  funext e
  change (heardIn k e).bind _ = _
  cases heardIn k e <;> rfl

/-- **The states `l` have come to rest**: they were told in succession by runs that have ended, each
as its outcome says, and by resets. -/
structure Settled (b : Bench) (l : List StateTold) : Prop where
  succession : InSuccession (resetsIn b.journal) l
  rest : ∀ x, (StateTold.idle :: l).getLast? = some x → x.state.isActive = false
  ended : ∀ x ∈ l, ∀ run, x.run = some run → ∃ o, b.runner.progress? run = some (.ended o) ∧
    (x.state.isTerminal = true → x.state = o.state)

/-- **What a member has heard of states.** The last is the one that is shown.  All of them have come
to rest, or those before the run that is going; what this run has told comes behind. -/
structure HasTold (b : Bench) (l : List StateTold) : Prop where
  last : ((StateTold.idle :: l).map (·.state)).getLast? = some b.snapshot.state
  settled : b.Idles ∧ b.Settled l ∨ ∃ run p c s ms before, b.StandsAt run p c s ∧
    s.isReady = false ∧ p.course.Trace ms c ∧ b.Settled before ∧
    l = before ++ (statesOf ms).map (⟨some run, ·⟩)

theorem Settled.turn (h : b.Settled l) (hord : b.Orderly) (t : Turn) : (b.turn t).Settled l where
  succession := by
    obtain ⟨js, hj⟩ := b.journal_isPrefix_turn t
    refine h.succession.mono ?_
    rw [← hj, resetsIn_append]
    exact Nat.le_add_right _ _
  rest := h.rest
  ended x hx run hrun := by
    obtain ⟨o, ho, hstate⟩ := h.ended x hx run hrun
    exact ⟨o, hord.ended_turn ho t, hstate⟩

/-- The states of a run come to rest with its end. -/
theorem Settled.append_run {r : Except Refusal RunOutcome} (h : b.Settled l)
    (hrun : ∀ x ∈ l, ∀ earlier, x.run = some earlier → earlier < run)
    (ht : p.course.Trace ms (.ended r))
    (ho : b.runner.progress? run = some (.ended (Course.outcomeOf r)))
    (hrest : ∀ x, (StateTold.idle :: (l ++ (statesOf ms).map (⟨some run, ·⟩))).getLast? = some x →
      x.state.isActive = false) :
    b.Settled (l ++ (statesOf ms).map (⟨some run, ·⟩)) where
  succession := h.succession.append_run h.rest hrun ht
  rest := hrest
  ended x hx other hother := by
    rcases List.mem_append.mp hx with hx | hx
    · exact h.ended x hx other hother
    · obtain ⟨t, hmem, rfl⟩ := List.mem_map.mp hx
      obtain rfl : run = other := Option.some.inj hother
      exact ⟨_, ho, Plan.state_eq_of_ended ht t hmem⟩

/-- What is told by a reset is at rest. -/
theorem Settled.append_resets {d : Nat} (h : b.Settled l)
    (hlast : ∀ x, (StateTold.idle :: l).getLast? = some x → x.state.isTerminal = true)
    (hd : d ≤ resetsIn b.journal) : b.Settled (l ++ List.replicate (d + 1) .idle) where
  succession := h.succession.append_resets hlast hd
  rest x hx := by
    rw [List.replicate_succ', ← List.append_assoc, ← List.cons_append, List.getLast?_concat] at hx
    rw [← Option.some.inj hx]
    rfl
  ended x hx run hrun := by
    rcases List.mem_append.mp hx with hx | hx
    · exact h.ended x hx run hrun
    · rw [List.eq_of_mem_replicate hx] at hrun
      cases hrun

/-- A turn in which nothing is told and nothing else is shown. -/
theorem HasTold.quiet (h : b.HasTold l) (hord : b.Orderly) (hw : b.wrote t = [])
    (hsnap : (b.turn t).snapshot = b.snapshot) (hidle : b.Idles → (b.turn t).Idles)
    (hgoing : ∀ run p c s, b.StandsAt run p c s → (b.turn t).StandsAt run p c s) :
    (b.turn t).HasTold (l ++ statesTold k ((b.wrote t).map (t.run?, ·))) := by
  rw [hw, List.map_nil, show statesTold k [] = [] from rfl, List.append_nil]
  refine ⟨hsnap ▸ h.last, ?_⟩
  rcases h.settled with ⟨hi, hl⟩ | ⟨run, p, c, s, ms, before, hs, hready, ht, hbefore, he⟩
  · exact .inl ⟨hidle hi, hl.turn hord t⟩
  · exact .inr ⟨run, p, c, s, ms, before, hgoing _ _ _ _ hs, hready, ht, hbefore.turn hord t, he⟩

/-! ## 5. A run that is followed -/

/-- **A run that is followed makes moves**, when no listener ever crashes.  Everyone hears what they
tell and the runner shows it. -/
theorem StandsAt.moves (h : b.StandsAt run p c s) (hord : b.Orderly) (hsteady : b.IsSteady)
    (horizon : Nat) :
    ∃ ms c' js, c.Trace ms c' ∧ b.Records ms js (b.proceed horizon run) ∧
      (b.proceed horizon run).snapshot = b.snapshot.hearAll (noticesOf ms) ∧
      ((∃ s', (b.proceed horizon run).StandsAt run p c' s' ∧ s'.isReady = false) ∨
        ∃ r, c' = .ended r ∧
          (b.proceed horizon run).runner.progress? run = some (.ended (Course.outcomeOf r))) := by
  rcases h.halts hord horizon with ⟨he, hready⟩ | ⟨ms, c₁, b₁, js, ht, hg, hr, hh⟩
  · rw [he]
    exact ⟨[], c, [], .nil c, .silent rfl rfl rfl, rfl, .inl ⟨s, h, hready⟩⟩
  · have hsole := (hord.isSole h.going).goes hg
    rcases hh.stands_ends_or_breaks (p := p) hsole with
      ⟨js', hr', hsnap, hcases⟩ | ⟨n, next, b₂, crash, -, hn, -⟩
    · refine ⟨ms, c₁, js ++ js', ht, ?_, hsnap.trans hg.snapshot, hcases⟩
      rw [← List.append_nil ms]
      exact hr.trans hr'
    · exact absurd hn (hsole.tell_ne_crash (hg.steady hsteady) n crash)

/-! ## 6. All histories -/

/-- What comes to rest was told by earlier runs than the one that is going. -/
theorem Settled.lt_of_going (h : b.Settled l) (hnew : b.Newest)
    (hs : b.runner.progress? run = some (.going s)) :
    ∀ x ∈ l, ∀ earlier, x.run = some earlier → earlier < run := by
  intro x hx earlier hrun
  obtain ⟨o, ho, -⟩ := h.ended x hx earlier hrun
  refine Nat.lt_of_le_of_ne (hnew run s hs earlier _ ho) ?_
  rintro rfl
  cases ho.symm.trans hs

theorem state_of_getLast? {state : RunState}
    (hlast : ((StateTold.idle :: l).map (·.state)).getLast? = some state) :
    ∀ x, (StateTold.idle :: l).getLast? = some x → x.state = state := by
  intro x hx
  rw [List.getLast?_map, hx] at hlast
  exact Option.some.inj hlast

section Turn

variable (hord : b.Orderly) (hsteady : b.IsSteady) (htidy : b.Tidy) (hk : k < b.members.length)
include hord hsteady htidy hk

/-- **What a run tells that is followed** comes behind what it told before. -/
theorem Settled.proceed {before : List StateTold} (hbefore : b.Settled before) (hnew : b.Newest)
    (hs : b.StandsAt run p c s) (ht : p.course.Trace ms c)
    (hlast : ((StateTold.idle :: (before ++ (statesOf ms).map (⟨some run, ·⟩))).map
      (·.state)).getLast? = some b.snapshot.state) (horizon : Nat) :
    (b.proceed horizon run).HasTold (before ++ (statesOf ms).map (⟨some run, ·⟩) ++
      statesTold k ((b.wrote (.proceed horizon run)).map (some run, ·))) := by
  obtain ⟨ms', c', js, ht', hr, hsnap, hcases⟩ := hs.moves hord hsteady horizon
  have hw : b.wrote (.proceed horizon run) = js := wrote_of_journal hr.journal
  have htold : statesTold k (js.map (some run, ·)) = (statesOf ms').map (⟨some run, ·⟩) := by
    rw [statesTold_map, hr.heard k hk]
    rfl
  have hbefore' : (b.proceed horizon run).Settled before := hbefore.turn hord (.proceed horizon run)
  rw [hw, htold]
  have hlast' : ((StateTold.idle :: (before ++ (statesOf ms).map (⟨some run, ·⟩) ++
      (statesOf ms').map (⟨some run, ·⟩))).map (·.state)).getLast? =
        some (b.proceed horizon run).snapshot.state := by
    rw [getLast?_states hlast, hsnap]
    exact Snapshot.state_hearAll (noticesOf ms') b.snapshot
  have hall : before ++ (statesOf ms).map (⟨some run, ·⟩) ++ (statesOf ms').map (⟨some run, ·⟩) =
      before ++ (statesOf (ms ++ ms')).map (⟨some run, ·⟩) := by
    rw [statesOf_append, List.map_append, List.append_assoc]
  rw [hall] at hlast' ⊢
  refine ⟨hlast', ?_⟩
  rcases hcases with ⟨s', hs', hready⟩ | ⟨r, rfl, ho⟩
  · exact .inr ⟨run, p, c', s', ms ++ ms', before, hs', hready, ht.append ht', hbefore', rfl⟩
  · have hidles : (b.proceed horizon run).Idles := by
      obtain ⟨q, ms₀, hd⟩ := htidy.going run s hs.going
      rcases hd.turn hord hsteady (.proceed horizon run) with ⟨s', ms₁, hd'⟩ | ⟨-, hrests⟩
      · cases ho.symm.trans hd'.going
      · exact hrests.idles (hord.turn (.proceed horizon run))
    refine .inl ⟨hidles, hbefore'.append_run (hbefore.lt_of_going hnew hs.going) (ht.append ht') ho
      fun x hx => ?_⟩
    rw [state_of_getLast? hlast' x hx]
    exact hidles.snapshot.1

/-- **What a reset tells** that is made after the end of a run: idle, and once more for each reset
that listeners make meanwhile, at most. -/
theorem statesTold_of_reset (hfree : ¬ b.IsBusy) (hterminal : b.snapshot.state.isTerminal = true) :
    ∃ d, d ≤ resetsIn (b.wrote (.control .reset)) ∧
      statesTold k ((b.wrote (.control .reset)).map (none, ·)) = List.replicate (d + 1) .idle := by
  have hrests := htidy.free (Option.not_isSome_iff_eq_none.mp hfree)
  obtain ⟨hdone, -⟩ := hrests.reset hord hsteady
  obtain ⟨d, hd, hheard⟩ := hears_reset hdone hterminal
  refine ⟨d, hd, ?_⟩
  rw [statesTold_map, (hheard k hk).filterMap_state?, List.map_replicate]
  rfl

/-- What an operator does is told behind what was told before. -/
theorem HasTold.control (h : b.HasTold l) (c : Control) :
    (b.turn (.control c)).HasTold (l ++ statesTold k ((b.wrote (.control c)).map (none, ·))) := by
  have hidle : b.Idles → (b.turn (.control c)).Idles := fun hi =>
    hi.control (fun n b => keptByActs_idles.tellWithin b.nesting n b) c
  rcases turn_control_cases b c with ⟨hj, hsnap⟩ | ⟨rfl, hfree, hterminal⟩
  · have hw : b.wrote (.control c) = [] := wrote_of_journal (hj.trans (List.append_nil _).symm)
    refine h.quiet hord hw hsnap hidle fun run p c' s hs => ⟨?_, hs.stands⟩
    obtain ⟨b', a, hc, hcalm⟩ := calm_control (hord.isSole hs.going).isBusy (fun n b => b.tell n) c
    rw [turn, hc]
    exact (hcalm.progress run).trans hs.going
  · obtain ⟨hi, hl⟩ : b.Idles ∧ b.Settled l := by
      rcases h.settled with hi | ⟨run, p, c, s, ms, before, hs, -⟩
      · exact hi
      · exact absurd (hord.isSole hs.going).isBusy hfree
    obtain ⟨d, hd, htold⟩ := statesTold_of_reset hord hsteady htidy hk hfree hterminal
    have hrests := htidy.free (Option.not_isSome_iff_eq_none.mp hfree)
    obtain ⟨-, hsnap, -⟩ := hrests.reset hord hsteady
    have hl' := hl.turn hord (.control .reset)
    have hd' : d ≤ resetsIn (b.turn (.control .reset)).journal := by
      obtain ⟨js, hj⟩ := b.journal_isPrefix_turn (.control .reset)
      rw [wrote_of_journal hj.symm] at hd
      rw [← hj, resetsIn_append]
      exact Nat.le_add_left_of_le hd
    rw [htold]
    refine ⟨?_, .inl ⟨hidle hi, hl'.append_resets (fun x hx => ?_) hd'⟩⟩
    · rw [hsnap, List.replicate_succ', ← List.append_assoc, ← List.cons_append, List.map_append,
        List.map_singleton, List.getLast?_concat]
      rfl
    · rw [state_of_getLast? h.last x hx]
      exact hterminal

/-- **Every turn tells behind what was told before.** -/
theorem HasTold.turn (h : b.HasTold l) (hnew : b.Newest) : ∀ t : Turn,
    (b.turn t).HasTold (l ++ statesTold k ((b.wrote t).map (t.run?, ·)))
  | .control c => h.control hord hsteady htidy hk c
  | .devices _ | .clock _ =>
    h.quiet hord (wrote_of_journal (List.append_nil _).symm) rfl
      (fun hi => ⟨hi.ready, hi.busy, hi.projector⟩)
      fun _ _ _ _ hs => ⟨hs.going, hs.stands⟩
  | .proceed horizon followed => by
    by_cases hg : ∃ s, b.runner.progress? followed = some (.going s)
    · obtain ⟨s, hs⟩ := hg
      rcases h.settled with ⟨hi, hl⟩ | ⟨run, p, c, s', ms, before, hstands, -, ht, hbefore, rfl⟩
      · -- The run makes its first move.
        obtain ⟨-, p, rfl⟩ := hi.ready followed s hs
        have hnil : l ++ (statesOf []).map (⟨some followed, ·⟩) = l := List.append_nil l
        have hp := hl.proceed hord hsteady htidy hk hnew ⟨hs, .ready⟩ (.nil p.course)
          (by rw [hnil]; exact h.last) horizon
        rw [hnil] at hp
        exact hp
      · obtain rfl : run = followed := ((hord.isSole hs).sole run s' hstands.going)
        exact hbefore.proceed hord hsteady htidy hk hnew hstands ht h.last horizon
    · have he : b.turn (.proceed horizon followed) = b := proceed_of_not_going (not_exists.mp hg)
      have hw : b.wrote (.proceed horizon followed) = [] :=
        wrote_of_journal (by rw [he, List.append_nil])
      exact h.quiet hord hw (by rw [he]) (fun hi => by rw [he]; exact hi)
        fun _ _ _ _ hs => by rw [he]; exact hs

end Turn

/-- **What is told over some turns.**  By induction on them. -/
theorem HasTold.after : ∀ {turns : List Turn} {b : Bench} {l : List StateTold}, b.HasTold l →
    b.Orderly → b.IsSteady → b.Tidy → b.Newest → k < b.members.length →
    (b.after turns).HasTold (l ++ statesTold k (b.chronicle turns))
  | [], b, l, h, _, _, _, _, _ => by
    rw [chronicle, show statesTold k [] = [] from rfl, List.append_nil]
    exact h
  | t :: turns, b, l, h, hord, hsteady, htidy, hnew, hk => by
    have h' := h.turn hord hsteady htidy hk hnew t
    have hk' : k < (b.turn t).members.length := by
      rw [size_turn]
      exact hk
    rw [chronicle, statesTold, List.filterMap_append, ← List.append_assoc]
    exact h'.after (hord.turn t) (hord.isSteady_turn hsteady t) (htidy.turn hord hsteady t)
      (hnew.turn hord t) hk'

/-- On a bench on which nothing has happened nothing was told. -/
theorem hasTold_create (logCapacity : Nat) (timing : Timing) (registry : Registry)
    (gateway : Gateway) (members : List Member) (nesting : Nat) :
    (create logCapacity timing registry gateway members nesting).HasTold [] := by
  have hidles : (create logCapacity timing registry gateway members nesting).Idles :=
    ((tidy_create _ _ _ _ _ _).free rfl).idles (orderly_create _ _ _ _ _ _)
  refine ⟨rfl, .inl ⟨hidles, .nil, fun x hx => ?_, fun _ hx => absurd hx List.not_mem_nil⟩⟩
  obtain rfl : StateTold.idle = x := Option.some.inj hx
  rfl

/-! ## 7. The law of the states -/

theorem HasTold.inSuccession (h : b.HasTold l) (hnew : b.Newest) :
    InSuccession (resetsIn b.journal) l := by
  rcases h.settled with ⟨-, hl⟩ | ⟨run, p, c, s, ms, before, hs, -, ht, hbefore, rfl⟩
  · exact hl.succession
  · exact hbefore.succession.append_run hbefore.rest (hbefore.lt_of_going hnew hs.going) ht

/-- The end of a run that has come to rest is that of its outcome. -/
theorem Settled.exists_ended (h : b.Settled l) : ∀ x ∈ l, x.state.isTerminal = true →
    ∃ run o, x.run = some run ∧ b.runner.progress? run = some (.ended o) ∧ x.state = o.state := by
  intro x hx hterminal
  cases hrun : x.run with
  | none =>
    rw [(h.succession.idle_iff x hx).mpr hrun] at hterminal
    cases hterminal
  | some run =>
    obtain ⟨o, ho, hstate⟩ := h.ended x hx run hrun
    exact ⟨run, o, rfl, ho, hstate hterminal⟩

/-- A run that is suspended has told of no end. -/
theorem HasTold.exists_ended (h : b.HasTold l) (htidy : b.Tidy) : ∀ x ∈ l,
    x.state.isTerminal = true →
    ∃ run o, x.run = some run ∧ b.runner.progress? run = some (.ended o) ∧ x.state = o.state := by
  have hlast := h.last
  rcases h.settled with ⟨-, hl⟩ | ⟨run, p, c, s, ms, before, hs, hready, ht, hbefore, rfl⟩
  · exact hl.exists_ended
  · intro x hx hterminal
    rcases List.mem_append.mp hx with hx | hx
    · exact hbefore.exists_ended x hx hterminal
    · obtain ⟨t, hmem, rfl⟩ := List.mem_map.mp hx
      have hgoing : b.snapshot.state.isTerminal = false := by
        obtain ⟨q, ms₀, hd⟩ := htidy.going run s hs.going
        rw [(hd.suspended hready).1.1]
        split <;> rfl
      obtain ⟨s₀, hs₀⟩ : ∃ s₀, ((StateTold.idle :: before).map (·.state)).getLast? = some s₀ :=
        ⟨_, List.getLast?_eq_some_getLast (List.cons_ne_nil _ _)⟩
      rw [getLast?_states hs₀, List.getLast?_cons_of_ne_nil (List.ne_nil_of_mem hmem)] at hlast
      have hall := (Plan.isChain_statesOf ht).tail.backwards_induction
        (fun s => s.isTerminal = false) (statesOf ms) (fun _ _ hst _ => hst.2) fun hne => by
          rw [List.getLast?_eq_some_getLast hne] at hlast
          rw [Option.some.inj hlast]
          exact hgoing
      rw [hall t hmem] at hterminal
      cases hterminal

/-- **In a turn in which no run is followed** nothing is told, or a reset is made after the end of a
run.  It tells idle, and once more for each reset that listeners make meanwhile, at most. -/
def TellsIdle (b : Bench) (k : Nat) (t : Turn) : Prop :=
  b.wrote t = [] ∨ t = .control .reset ∧ ¬ b.IsBusy ∧ b.snapshot.state.isTerminal = true ∧
    ∃ d, d ≤ resetsIn (b.wrote t) ∧
      statesTold k ((b.wrote t).map (none, ·)) = List.replicate (d + 1) .idle

theorem tellsIdle (hord : b.Orderly) (hsteady : b.IsSteady) (htidy : b.Tidy)
    (hk : k < b.members.length) (ht : t.run? = none) : b.TellsIdle k t := by
  cases t with
  | control c =>
    rcases turn_control_cases b c with ⟨hj, -⟩ | ⟨rfl, hfree, hterminal⟩
    · exact .inl (wrote_of_journal (hj.trans (List.append_nil _).symm))
    · exact .inr ⟨rfl, hfree, hterminal,
        statesTold_of_reset hord hsteady htidy hk hfree hterminal⟩
  | devices | clock => exact .inl (wrote_of_journal (List.append_nil _).symm)
  | proceed => cases ht

/-- **The states that are told over any history.** On a bench on which nothing has happened, with
listeners that never crash, anything may happen in any order; it is `b` then.

What any member of the audience has heard of states was told in succession.  Each state is one that
the table allows after the one before, or running, told by a new run after the end of an earlier
one.  No state of a run that goes on is left for idle, nothing comes after the end of a run within
it, and idle is told by resets only, after the end of a run, which is that of its outcome.  The
state told last is the one that is shown.

The exception are resets that listeners make while they are told of a reset: idle may be told twice
in a row then.  Each turn tells it once, and once more for each such reset at most. -/
theorem states_of_history {b₀ b : Bench} {logCapacity : Nat} {timing : Timing}
    {registry : Registry} {gateway : Gateway} {members : List Member} {nesting : Nat}
    {turns : List Turn} {k : Nat}
    (hb₀ : b₀ = create logCapacity timing registry gateway members nesting)
    (hsteady : b₀.IsSteady) (hk : k < members.length) (hb : b = b₀.after turns) :
    let told := statesTold k (b₀.chronicle turns)
    InSuccession (resetsIn b.journal) told ∧
      told.IsChain (fun x y => x.state.isActive = true → y.state ≠ .idle) ∧
      (∀ x ∈ told, x.state.isTerminal = true →
        ∃ run o, x.run = some run ∧ b.outcome? run = some o ∧ x.state = o.state) ∧
      (∀ x, (StateTold.idle :: told).getLast? = some x → x.state = b.snapshot.state) ∧
      ∀ earlier t later, turns = earlier ++ t :: later → t.run? = none →
        (b₀.after earlier).TellsIdle k t := by
  intro told
  have hord₀ : b₀.Orderly := hb₀ ▸ orderly_create _ _ _ _ _ _
  have htidy₀ : b₀.Tidy := hb₀ ▸ tidy_create _ _ _ _ _ _
  have hnew₀ : b₀.Newest := newest_of_isReachable (hb₀ ▸ isReachable_create _ _ _ _ _ _)
  have hk₀ : k < b₀.members.length := by
    rw [hb₀]
    exact hk
  have htold₀ : b₀.HasTold [] := hb₀ ▸ hasTold_create _ _ _ _ _ _
  have htold : b.HasTold told := hb ▸ htold₀.after hord₀ hsteady htidy₀ hnew₀ hk₀
  have hsucc := htold.inSuccession (hb ▸ hnew₀.after hord₀)
  refine ⟨hsucc, ?_, fun x hx hterminal => ?_, state_of_getLast? htold.last,
    fun earlier t later _ ht => ?_⟩
  · refine hsucc.chain.tail.imp fun x y hxy hactive hidle => ?_
    rcases hxy with ⟨hallowed | ⟨-, hrunning, -⟩, -, -⟩ | ⟨-, rfl, -⟩
    · rw [hidle] at hallowed
      have hterminal :=
        RunState.isTerminal_of_mayBecome_idle (RunState.become?_eq_ok_iff.mp hallowed).1
      rw [RunState.isTerminal_of_isActive hactive] at hterminal
      cases hterminal
    · cases hidle.symm.trans hrunning
    · cases hactive
  · obtain ⟨run, o, hrun, ho, hstate⟩ := htold.exists_ended (hb ▸ htidy₀.after hord₀ hsteady) x hx
      hterminal
    refine ⟨run, o, hrun, ?_, hstate⟩
    rw [outcome?, ho]
    rfl
  · refine tellsIdle hord₀.after (hord₀.isSteady_after hsteady) (htidy₀.after hord₀ hsteady) ?_ ht
    rw [size_after]
    exact hk₀

/-- Three runs of one line each, with a reset after the first. -/
def threeRuns : List Turn :=
  waited ++ [.control .reset, .control (.start ⟨none, ["wait 0"]⟩ .continuous), .proceed 2000 1,
    .control (.start ⟨none, ["wait 0"]⟩ .continuous), .proceed 3000 2]

theorem states_of_threeRuns :
    watched.IsSteady ∧ 0 < watched.members.length ∧
      statesTold 0 (watched.chronicle threeRuns) =
        [⟨some 0, .running⟩, ⟨some 0, .completed⟩, .idle, ⟨some 1, .running⟩, ⟨some 1, .completed⟩,
          ⟨some 2, .running⟩, ⟨some 2, .completed⟩] ∧
      (StateTold.idle :: statesTold 0 (watched.chronicle threeRuns)).IsChain
        StateTold.Precedes := by
  have htold : statesTold 0 (watched.chronicle threeRuns) =
      [⟨some 0, .running⟩, ⟨some 0, .completed⟩, .idle, ⟨some 1, .running⟩, ⟨some 1, .completed⟩,
        ⟨some 2, .running⟩, ⟨some 2, .completed⟩] := by decide +kernel
  have hnone : resetsIn (watched.after threeRuns).journal = 0 := by decide +kernel
  obtain ⟨hsucc, -⟩ := states_of_history (Eq.refl watched) isSteady_watched
    (show 0 < watched.members.length from Nat.zero_lt_one) (Eq.refl (watched.after threeRuns))
  refine ⟨isSteady_watched, Nat.zero_lt_one, htold, hsucc.chain.imp fun x y hxy => ?_⟩
  refine hxy.resolve_right fun hagain => ?_
  rw [hnone] at hagain
  exact Nat.lt_irrefl 0 hagain.1

/-- A bench with a listener that resets the runner as soon as it is told that no line is shown. -/
def resetting : Bench :=
  create 10 {} (Registry.empty.register "alpha" .network fun _ => .after 5 (.replied .ok)) .registry
    [.listener (fun _ n => if n = .cursor none then [.control .reset] else []) []] 1

/-- A run without a line, and a reset after its end. -/
def runAndReset : List Turn :=
  [.control (.start ⟨none, ["# nothing"]⟩ .continuous), .proceed 1000 0, .control .reset]

/-- **Idle after idle.**  The listener is told that the reset leaves the line, and resets the runner
itself, which still shows that the run has completed.  So idle is told by the one reset and by the
other. -/
theorem exists_idle_after_idle :
    resetting.IsSteady ∧
      statesTold 0 (resetting.chronicle runAndReset) =
        [⟨some 0, .running⟩, ⟨some 0, .completed⟩, .idle, .idle] ∧
      ¬ (statesTold 0 (resetting.chronicle runAndReset)).IsChain fun x y =>
        x.state.become? y.state = .ok y.state ∨ x.state.isTerminal = true ∧ y.state = .running := by
  have htold : statesTold 0 (resetting.chronicle runAndReset) =
      [⟨some 0, .running⟩, ⟨some 0, .completed⟩, .idle, .idle] := by decide +kernel
  refine ⟨fun m hm => ?_, htold, fun hchain => ?_⟩
  · rw [List.mem_singleton.mp hm]
    intro earlier n c hmem
    simp only at hmem
    split at hmem
    · cases List.mem_singleton.mp hmem
    · exact List.not_mem_nil hmem
  · rw [htold] at hchain
    rcases List.isChain_pair.mp hchain.tail.tail with h | ⟨h, -⟩ <;> cases h

end Bench

end DeviceScript
