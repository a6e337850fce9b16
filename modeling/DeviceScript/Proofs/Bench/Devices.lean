import DeviceScript.Proofs.Bench.Exclusion
import DeviceScript.Proofs.Course.Commands
import DeviceScript.Proofs.Course.Deliveries
/-!
# Devices that come and go during a run

The registry of a bench is both the directory and the gateway of its runs, and it may become any
other one between two turns, which is when the run is suspended.  Here a run is followed through such
a history, each of its moves with the registry as it was when the run set about it
(`Bench.MovesOver`).  The answer of a call is settled when the command is handed over, so that what
becomes of the registry while the call is under way does not matter (`Stage.Awaits`).

With that the moves have the answers of their registries (`Bench.Attended.exists_unfolds`), and
what holds of such moves holds of the run (`Bench.deliveries_of_run`).
-/

namespace DeviceScript

/-- Whether a listener changed the devices. -/
def Happening.changesDevices : Happening → Bool
  | acted _ (.setConnected ..) _ => true
  | _ => false

/-- The commands that were handed over according to the journal `js`, in order. -/
def sentIn (js : List (Nat × Happening)) : List Request :=
  js.filterMap fun
    | (_, .sent r) => some r
    | _ => none

theorem sentIn_append (js js' : List (Nat × Happening)) :
    sentIn (js ++ js') = sentIn js ++ sentIn js' :=
  List.filterMap_append

/-- The commands that were handed over when this run was followed. -/
def sentBy (run : Nat) (lines : List (Option Nat × (Nat × Happening))) : List Request :=
  sentIn ((lines.filter (·.1 = some run)).map (·.2))

/-- The command that a run has handed over and not heard of yet. -/
def Course.pending : Course → List Request
  | .call request _ _ => [request]
  | _ => []

/-- The result that a run at this stage awaits is that of the registry. -/
def Stage.Awaits (r : Registry) : Course → Stage → Prop
  | .call request limit _, .calling _ result _ => result = r.resultOf request limit
  | _, _ => True

namespace Bench

variable {b b' b₁ b₂ : Bench} {run horizon : Nat} {p : Plan} {s : Stage} {ms ms' : List Move}
  {js js' : List (Nat × Happening)} {r : Registry} {c c' : Course} {m : Move}

/-! ## 1. What listeners leave alone -/

/-- The devices are those of `b`, unless a listener changed them, and the active run is that of `b`;
`js` was written into the journal. -/
structure Retains (b : Bench) (js : List (Nat × Happening)) (b' : Bench) : Prop where
  active : b'.runner.active = b.runner.active
  journal : b'.journal = b.journal ++ js
  registry : (∀ e ∈ js, e.2.changesDevices = false) → b'.registry = b.registry

theorem Retains.refl (b : Bench) : b.Retains [] b :=
  ⟨rfl, (List.append_nil _).symm, fun _ => rfl⟩

theorem Retains.trans (h : b.Retains js b₁) (h' : b₁.Retains js' b₂) : b.Retains (js ++ js') b₂ where
  active := h'.active.trans h.active
  journal := by rw [h'.journal, h.journal, List.append_assoc]
  registry hq := by
    obtain ⟨hq₁, hq₂⟩ := List.forall_mem_append.mp hq
    exact (h'.registry hq₂).trans (h.registry hq₁)

theorem Retains.isBusy (h : b.Retains js b') (hb : b.IsBusy) : b'.IsBusy := by
  rw [IsBusy, h.active]
  exact hb

theorem retains_note (h : Happening) : b.Retains [(b.now, h)] (b.note h) :=
  ⟨rfl, rfl, fun _ => rfl⟩

/-- While a run is active, nothing but a change of the devices changes them. -/
theorem registry_control (hb : b.IsBusy) (tell : Notice → Bench → Bench × Option Crash)
    {control : Control} (hc : ∀ name connected, control ≠ .setConnected name connected) :
    (b.control tell control).1.registry = b.registry := by
  cases control with
  | start script mode =>
    rw [Bench.control]
    split <;> rfl
  | reset =>
    cases hr : b.runner.resetNotices? with
    | error e => simp only [Bench.control, hr]
    | ok ns => exact absurd (Runner.resetNotices?_eq_ok hr).1 (Option.isSome_iff_ne_none.mp hb)
  | setConnected name connected => exact absurd rfl (hc name connected)
  | stop | continueRun | stopRun | continueThe => rfl

theorem keptByActs_retains (hb : b.IsBusy) :
    KeptByActs (fun _ => True) (fun b' => ∃ js, b.Retains js b') where
  observe {n b'} _ h := by
    obtain ⟨js, h⟩ := h
    exact ⟨js, (observe_eq b' n).1.trans h.active, h.journal, h.registry⟩
  inform {m n b'} h := by
    obtain ⟨js, h⟩ := h
    unfold inform
    split
    · exact ⟨js, h⟩
    · exact ⟨_, h.trans ⟨rfl, rfl, fun _ => rfl⟩⟩
  crashed h := by
    obtain ⟨js, h⟩ := h
    exact ⟨_, h.trans (retains_note _)⟩
  refused {tell} _ {_ _ b₁ _} hc h := by
    obtain ⟨js, h⟩ := h
    obtain ⟨_, _, hc', -⟩ := calm_control (h.isBusy hb) tell _
    rw [hc] at hc'
    cases hc'
  acted {tell} _ {m control a b₁ b₂} hc h := by
    obtain ⟨js, h⟩ := h
    obtain ⟨_, _, hc', hcalm⟩ := calm_control (h.isBusy hb) tell control
    obtain ⟨rfl, -⟩ := Prod.mk.inj (hc.symm.trans hc')
    have hstep : b₁.Retains [(b₂.now, .acted m control a)] (b₂.note (.acted m control a)) := by
      refine ⟨hcalm.active, ?_, fun hq => ?_⟩
      · rw [note, hcalm.journal, List.append_nil]
      · have hquiet := List.forall_mem_singleton.mp hq
        have hne : ∀ name connected, control ≠ .setConnected name connected := by
          rintro name connected rfl
          cases hquiet
        have hsame := registry_control (h.isBusy hb) tell hne
        rw [hc] at hsame
        exact hsame
    exact ⟨_, h.trans hstep⟩

/-- **A notice of the active run leaves the devices alone**, unless a listener changes them. -/
theorem retains_tell (hb : b.IsBusy) (n : Notice) : ∃ js, b.Retains js (b.tell n).1 :=
  (keptByActs_retains hb).tellWithin b.nesting n b trivial ⟨[], .refl b⟩

/-! ## 2. Moves -/

theorem Makes.retains (h : Makes run horizon b m b') (hb : b.IsBusy) : ∃ js, b.Retains js b' := by
  cases h with
  | @told _ n ht =>
    have h₁ := retains_tell hb n
    rw [ht] at h₁
    exact h₁
  | foundAny | foundDevice | foundStop | parked => exact ⟨[], .refl _⟩
  | rested hr =>
    obtain ⟨moment, rfl⟩ := eq_clock_of_restEnd? hr
    exact ⟨[], { Retains.refl b with }⟩
  | called _ hr =>
    obtain ⟨moment, rfl⟩ := eq_clock_of_callEnd? hr
    exact ⟨_, rfl, rfl, fun _ => rfl⟩
  | armed | disarmed => exact ⟨[], { Retains.refl b with }⟩

/-- A move has the answer of the registry that the bench has. -/
theorem Makes.isAnsweredBy (h : Makes run horizon b m b') (hg : b.gateway = .registry) :
    m.IsAnsweredBy b.registry := by
  cases h with
  | called hl _ =>
    rw [handling, hg] at hl
    exact (congrArg Prod.snd hl).symm
  | told | rested | parked => trivial
  | foundAny | foundDevice => rfl
  | foundStop | armed | disarmed => trivial

theorem requests_eq (b : Bench) : b.requests = sentIn b.journal :=
  rfl

/-- A move hands over what it calls. -/
theorem Makes.requests (h : Makes run horizon b m b') (hsole : b.IsSole run) :
    b'.requests = b.requests ++ (callsIn [m]).map (·.1) := by
  cases h with
  | @told _ n ht =>
    obtain ⟨js, htells, -⟩ := hsole.tells n
    rw [ht] at htells
    exact htells.calm.requests.trans (List.append_nil _).symm
  | foundAny | foundDevice | foundStop | armed | disarmed | parked => exact (List.append_nil _).symm
  | rested hr =>
    obtain ⟨moment, rfl⟩ := eq_clock_of_restEnd? hr
    exact (List.append_nil _).symm
  | called _ hr =>
    obtain ⟨moment, rfl⟩ := eq_clock_of_callEnd? hr
    exact requests_note_sent _ _

/-- **Moves have the answers of the registry that the bench has when the first one is made**, unless a
listener changes the devices; and they hand over what they call.  By induction on the moves. -/
theorem MakesAll.answered (h : MakesAll run horizon b ms b') (hsole : b.IsSole run)
    (hg : b.gateway = .registry) :
    ∃ js, b.Retains js b' ∧ b'.requests = b.requests ++ (callsIn ms).map (·.1) ∧
      ((∀ e ∈ js, e.2.changesDevices = false) → ∀ m ∈ ms, m.IsAnsweredBy b.registry) := by
  induction h with
  | nil b => exact ⟨[], .refl b, (List.append_nil _).symm, fun _ _ hm => absurd hm List.not_mem_nil⟩
  | @cons b₁ b₂ b₃ m ms hm _ ih =>
    obtain ⟨js₁, hr₁⟩ := hm.retains hsole.isBusy
    obtain ⟨js₂, hr₂, hsent, hanswers⟩ :=
      ih (hsole.goes (hm.goes hsole.isBusy)) (((lasting_gateway _).keptByRun run).makes hm hg)
    refine ⟨js₁ ++ js₂, hr₁.trans hr₂, ?_, fun hq => ?_⟩
    · have hcalls : callsIn (m :: ms) = callsIn [m] ++ callsIn ms :=
        List.filterMap_append (l := [m])
      rw [hsent, hm.requests hsole, hcalls, List.map_append, List.append_assoc]
    · obtain ⟨hq₁, hq₂⟩ := List.forall_mem_append.mp hq
      refine List.forall_mem_cons.mpr ⟨hm.isAnsweredBy hg, ?_⟩
      rw [← hr₁.registry hq₁]
      exact hanswers hq₂

/-- What a run wakes with has the answer that it awaited, and was handed over before. -/
theorem Wakes.answered (h : Wakes run horizon b s ms b') (hs : s.StandsOn p c) (ha : s.Awaits r c)
    (ht : c.Trace ms c') :
    (∀ m ∈ ms, m.IsAnsweredBy r ∧ m.isSuspension = true) ∧ (callsIn ms).map (·.1) = c.pending ∧
      (s.isReady = false → ms ≠ []) := by
  cases hs with
  | ready =>
    cases h
    exact ⟨fun _ hm => absurd hm List.not_mem_nil, rfl, nofun⟩
  | resting =>
    cases h
    cases ht with
    | cons hm _ =>
      cases hm
      exact ⟨List.forall_mem_singleton.mpr ⟨trivial, rfl⟩, rfl, fun _ => List.cons_ne_nil _ _⟩
  | calling =>
    cases h
    cases ht with
    | cons hm _ =>
      cases hm
      exact ⟨List.forall_mem_singleton.mpr ⟨ha, rfl⟩, rfl, fun _ => List.cons_ne_nil _ _⟩
  | parked =>
    cases h
    cases ht with
    | cons hm _ =>
      cases hm
      exact ⟨List.forall_mem_singleton.mpr ⟨trivial, rfl⟩, rfl, fun _ => List.cons_ne_nil _ _⟩

/-! ## 3. Halts -/

/-- A run that halts hands over the command that it awaits the result of. -/
theorem Halts.requests (h : Halts run horizon (abort run horizon) c b b') (hsole : b.IsSole run) :
    b'.requests = b.requests ++ c.pending := by
  cases h with
  | ended | resting | parked => exact (List.append_nil _).symm
  | calling => exact requests_note_sent _ _
  | @broken n _ _ b₁ crash hn =>
    obtain ⟨js, htells, -, hsole'⟩ := hsole.tells n
    rw [hn] at htells hsole'
    obtain ⟨o, ns, js', hcl, -⟩ := hsole'.leaves_abort horizon crash
    have hreport : (abort run horizon crash b₁).requests = b₁.requests :=
      requests_of_unsent hcl.journal hcl.unsent
    rw [hreport]
    exact htells.calm.requests.trans (List.append_nil _).symm

/-- The run is at a stage of its plan, and the result that it awaits, if it does, is that of `r`. -/
structure Attended (b : Bench) (run : Nat) (p : Plan) (r : Registry) (c : Course) (s : Stage) :
    Prop where
  going : b.runner.progress? run = some (.going s)
  stands : s.StandsOn p c
  awaits : s.Awaits r c

/-- The run has ended, and by itself unless a listener of the bench `b₀` could crash. -/
def EndsBy (b₀ b : Bench) (run : Nat) (c : Course) : Prop :=
  ∃ o, b.runner.progress? run = some (.ended o) ∧
    ((∃ res, c = .ended res ∧ o = Course.outcomeOf res) ∨ ¬ b₀.IsSteady)

/-- **A halt of a run**: it awaits a result that is settled, or it has ended. -/
theorem Halts.attended (h : Halts run horizon (abort run horizon) c b b') (hsole : b.IsSole run)
    (hg : b.gateway = .registry) :
    (∃ s, b'.Attended run p b.registry c s ∧ s.isReady = false) ∨
      EndsBy b b' run c ∧ c.pending = [] := by
  cases h with
  | ended r => exact .inr ⟨⟨_, hsole.progress?_conclude _, .inl ⟨r, rfl, rfl⟩⟩, rfl⟩
  | @broken n _ _ b₁ crash hn =>
    obtain ⟨-, -, -, hsole'⟩ := hsole.tells n
    rw [hn] at hsole'
    obtain ⟨o, ns, js, hcl, -⟩ := hsole'.leaves_abort horizon crash
    exact .inr ⟨⟨o, hcl.outcome, .inr fun hs => hsole.tell_ne_crash hs n crash hn⟩, rfl⟩
  | resting =>
    exact .inl ⟨_, ⟨hsole.progress?_suspend _, .resting _ _ _, trivial⟩, rfl⟩
  | calling hr _ =>
    refine .inl ⟨_, ⟨(hsole.goes (goes_note b _)).progress?_suspend _, .calling _ _ _ _ _, ?_⟩, rfl⟩
    rw [handling, hg] at hr
    exact (congrArg Prod.snd hr).symm
  | parked => exact .inl ⟨_, ⟨hsole.progress?_suspend _, .parked _, trivial⟩, rfl⟩

/-! ## 4. A history -/

/-- **What a run does in a history**, each move with the registry as it was when the run set about it.
In a turn in which the run is followed it wakes, makes moves and comes to a halt, or nothing happens;
`r` is the registry as it was when it was last followed. -/
inductive MovesOver (run : Nat) : Registry → Bench → List Turn → List (Registry × Move) → Prop
  | nil (r : Registry) (b : Bench) : MovesOver run r b [] []
  | idle {r : Registry} {b : Bench} {t : Turn} {turns : List Turn} {steps : List (Registry × Move)}
      (h : t.run? = some run → b.turn t = b) (hrest : MovesOver run r (b.turn t) turns steps) :
      MovesOver run r b (t :: turns) steps
  | followed {r : Registry} {b b₁ b₂ : Bench} {horizon : Nat} {s : Stage} {ms₁ ms₂ : List Move}
      {c : Course} {turns : List Turn} {steps : List (Registry × Move)}
      (hs : b.runner.progress? run = some (.going s)) (hw : Wakes run horizon b s ms₁ b₁)
      (hm : MakesAll run horizon b₁ ms₂ b₂)
      (hh : Halts run horizon (abort run horizon) c b₂ (b.proceed horizon run))
      (hrest : MovesOver run b.registry (b.proceed horizon run) turns steps) :
      MovesOver run r b (.proceed horizon run :: turns)
        (ms₁.map (r, ·) ++ ms₂.map (b.registry, ·) ++ steps)

theorem sentBy_append (lines lines' : List (Option Nat × (Nat × Happening))) :
    sentBy run (lines ++ lines') = sentBy run lines ++ sentBy run lines' := by
  rw [sentBy, List.filter_append, List.map_append, sentIn_append]
  rfl

theorem sentBy_map (label : Option Nat) (js : List (Nat × Happening)) :
    sentBy run (js.map (label, ·)) = if label = some run then sentIn js else [] := by
  rw [sentBy, List.filter_map, List.map_map]
  split <;> rename_i h <;> simp [Function.comp_def, h, sentIn]

/-- A run that has ended makes no move and hands nothing over. -/
theorem movesOver_of_ended {o : RunOutcome} : ∀ (turns : List Turn) {b : Bench} (r : Registry),
    b.Orderly → b.runner.progress? run = some (.ended o) →
    MovesOver run r b turns [] ∧ sentBy run (b.chronicle turns) = []
  | [], b, r, _, _ => ⟨.nil r b, rfl⟩
  | t :: turns, b, r, hord, ho => by
    obtain ⟨hrest, hsent⟩ := movesOver_of_ended turns r (hord.turn t) (hord.ended_turn ho t)
    refine ⟨.idle (fun ht => ?_) hrest, ?_⟩
    · cases t with
      | proceed horizon other =>
        cases ht
        exact proceed_of_not_going fun s hs => by cases ho.symm.trans hs
      | control | devices | clock => cases ht
    · rw [chronicle, sentBy_append, hsent, List.append_nil, sentBy_map]
      split
      · rename_i hrun
        refine List.filterMap_eq_nil_iff.mpr fun e he => ?_
        obtain ⟨s, hs⟩ := going_of_mem_wrote he hrun
        cases ho.symm.trans hs
      · rfl

/-- What is written in a turn in which the run is followed. -/
theorem requests_turn (b : Bench) (t : Turn) :
    (b.turn t).requests = b.requests ++ sentIn (b.wrote t) := by
  obtain ⟨js, hj⟩ := b.journal_isPrefix_turn t
  rw [wrote_of_journal hj.symm, requests_eq, ← hj, sentIn_append, requests_eq]

/-- **A run at a stage that is followed** waits on, or makes moves with the answers of their
registries to its next halt. -/
theorem Attended.proceed (h : b.Attended run p r c s) (hord : b.Orderly)
    (hg : b.gateway = .registry) (horizon : Nat)
    (hquiet : ∀ e ∈ b.wrote (.proceed horizon run), e.2.changesDevices = false) :
    (b.proceed horizon run = b) ∨
      ∃ ms₁ b₁ ms₂ b₂ c', Wakes run horizon b s ms₁ b₁ ∧ MakesAll run horizon b₁ ms₂ b₂ ∧
        Halts run horizon (abort run horizon) c' b₂ (b.proceed horizon run) ∧
        c.Trace (ms₁ ++ ms₂) c' ∧
        Answered (ms₁.map (r, ·) ++ ms₂.map (b.registry, ·)) ∧
        (s.isReady = false → ms₁ ≠ []) ∧ (∀ m ∈ ms₁, m.isSuspension = true) ∧
        c.pending ++ sentIn (b.wrote (.proceed horizon run)) =
          (callsIn (ms₁ ++ ms₂)).map (·.1) ++ c'.pending ∧
        ((∃ s', (b.proceed horizon run).Attended run p b.registry c' s' ∧ s'.isReady = false) ∨
          EndsBy b (b.proceed horizon run) run c' ∧ c'.pending = []) := by
  have hsole := hord.isSole h.going
  rcases resume_wakes b run horizon h.stands with ⟨he, -⟩ | ⟨ms₁, c₁, b₁, hw, ht₁, he, -⟩
  · exact .inl ((proceed_of_going horizon h.going).trans he)
  · right
    obtain ⟨ms₂, c', b₂, ht₂, hm, hh⟩ := follow_makes run horizon (abort run horizon) c₁ b₁
    rw [← he, ← proceed_of_going horizon h.going] at hh
    obtain ⟨hanswers₁, hcalls, hready⟩ := hw.answered h.stands h.awaits ht₁
    have hsole₁ := hsole.goes hw.goes
    have hsole₂ := hsole₁.goes (hm.goes hsole₁.isBusy)
    obtain ⟨moment, rfl⟩ := hw.eq_clock
    obtain ⟨js, hr, hsent, hanswers₂⟩ := hm.answered hsole₁ hg
    -- what the moves write is part of what the turn writes
    have hpre : b.journal ++ js <+: (b.turn (.proceed horizon run)).journal := by
      have hkept := (lasting_journal b₂.journal).keptByRun run
      rw [← hr.journal]
      exact hkept.halts hkept.abort hh List.prefix_rfl
    obtain ⟨js', hjs'⟩ := hpre
    have hwrote : b.wrote (.proceed horizon run) = js ++ js' :=
      wrote_of_journal (hjs'.symm.trans (List.append_assoc _ _ _))
    have hq : ∀ e ∈ js, e.2.changesDevices = false :=
      fun e he => hquiet e (hwrote ▸ List.mem_append_left _ he)
    have hregistry : b₂.registry = b.registry := hr.registry hq
    refine ⟨ms₁, _, ms₂, b₂, c', hw, hm, hh, ht₁.append ht₂, ?_, hready,
      fun m hm => (hanswers₁ m hm).2, ?_, ?_⟩
    · refine (answered_map fun m hm => (hanswers₁ m hm).1).append (answered_map (hanswers₂ hq))
        fun x hx _ _ hns => ?_
      obtain ⟨m, hm, rfl⟩ := List.mem_map.mp (List.mem_of_getLast? hx)
      exact absurd (hanswers₁ m hm).2 (hns ▸ Bool.false_ne_true)
    · have hall : b.requests ++ sentIn (b.wrote (.proceed horizon run)) =
          b.requests ++ ((callsIn ms₂).map (·.1) ++ c'.pending) := by
        rw [← requests_turn, ← List.append_assoc]
        exact (hh.requests hsole₂).trans (congrArg (· ++ c'.pending) hsent)
      rw [List.append_cancel_left hall, ← hcalls, ← List.append_assoc, ← List.map_append,
        callsIn_append]
    · rcases hh.attended (p := p) hsole₂ (((lasting_gateway _).keptByRun run).makesAll hm hg) with
        ⟨s', ha, hs'⟩ | ⟨⟨o, ho, hcause⟩, hp⟩
      · rw [hregistry] at ha
        exact .inl ⟨s', ha, hs'⟩
      · refine .inr ⟨⟨o, ho, hcause.imp_right fun hns hs => hns ?_⟩, hp⟩
        exact (hm.goes hsole₁.isBusy).steady hs

/-- A turn in which the run is not followed leaves it at its stage. -/
theorem Attended.turn_of_ne (h : b.Attended run p r c s) (hord : b.Orderly) :
    ∀ {t : Turn}, t.run? ≠ some run → (b.turn t).Attended run p r c s
  | .control control, _ => by
    obtain ⟨b', a, hc, hcalm⟩ :=
      calm_control (hord.isSole h.going).isBusy (fun n b => b.tell n) control
    rw [turn, hc]
    exact ⟨(hcalm.progress run).trans h.going, h.stands, h.awaits⟩
  | .devices _, _ | .clock _, _ => ⟨h.going, h.stands, h.awaits⟩
  | .proceed horizon other, hne => by
    rw [turn, proceed_of_not_going]
    · exact h
    · intro s' hs'
      exact hne (congrArg some ((hord.isSole h.going).sole other s' hs'))

/-- **What a run makes of a history** that stands at `c` on its course: it makes these moves, with the
answers of their registries, and stands at `c'` then. -/
structure Unfolds (b : Bench) (run : Nat) (r : Registry) (turns : List Turn) (c : Course)
    (steps : List (Registry × Move)) (c' : Course) : Prop where
  moves : MovesOver run r b turns steps
  trace : c.Trace (steps.map (·.2)) c'
  answered : Answered steps
  sent : c.pending ++ sentBy run (b.chronicle turns) =
    (callsIn (steps.map (·.2))).map (·.1) ++ c'.pending

/-- The end of a run on a later bench. -/
theorem EndsBy.of_turn {t : Turn} (hord : b.Orderly) (h : EndsBy (b.turn t) b' run c) :
    EndsBy b b' run c := by
  obtain ⟨o, ho, hcause⟩ := h
  exact ⟨o, ho, hcause.imp_right (mt (hord.isSteady_turn · t))⟩

section Cons

variable {t : Turn} {turns : List Turn} {steps : List (Registry × Move)}

/-- A turn in front in which the run does nothing. -/
theorem Unfolds.idle (h : (b.turn t).Unfolds run r turns c steps c')
    (ht : t.run? = some run → b.turn t = b) : b.Unfolds run r (t :: turns) c steps c' where
  moves := .idle ht h.moves
  trace := h.trace
  answered := h.answered
  sent := by
    have hnone : sentBy run ((b.wrote t).map (t.run?, ·)) = [] := by
      rw [sentBy_map]
      split
      · rename_i hrun
        have hj : (b.turn t).journal = b.journal ++ [] := by
          rw [ht hrun, List.append_nil]
        rw [wrote_of_journal hj]
        rfl
      · rfl
    rw [chronicle, sentBy_append, hnone, List.nil_append]
    exact h.sent

/-- A turn in front in which the run makes the moves `ms`. -/
theorem Unfolds.cons {c₁ : Course} {horizon : Nat} {ms₁ ms₂ : List Move}
    (h : (b.proceed horizon run).Unfolds run b.registry turns c₁ steps c')
    (hs : b.runner.progress? run = some (.going s)) (hw : Wakes run horizon b s ms₁ b₁)
    (hm : MakesAll run horizon b₁ ms₂ b₂)
    (hh : Halts run horizon (abort run horizon) c₁ b₂ (b.proceed horizon run))
    (ht : c.Trace (ms₁ ++ ms₂) c₁) (ha : Answered (ms₁.map (r, ·) ++ ms₂.map (b.registry, ·)))
    (hsuspended : ∀ m ∈ ms₁, m.isSuspension = true)
    (hhead : ∀ x ∈ steps.head?, x.1 = b.registry)
    (hsent : c.pending ++ sentIn (b.wrote (.proceed horizon run)) =
      (callsIn (ms₁ ++ ms₂)).map (·.1) ++ c₁.pending) :
    b.Unfolds run r (.proceed horizon run :: turns) c
      (ms₁.map (r, ·) ++ ms₂.map (b.registry, ·) ++ steps) c' := by
  have hmap : (ms₁.map (r, ·) ++ ms₂.map (b.registry, ·) ++ steps).map (·.2) =
      ms₁ ++ ms₂ ++ steps.map (·.2) := by
    simp [Function.comp_def]
  constructor
  case moves => exact .followed hs hw hm hh h.moves
  case trace =>
    rw [hmap]
    exact ht.append h.trace
  case answered =>
    refine ha.append h.answered ?_
    intro x hx y hy hns
    rw [hhead y hy]
    rw [List.getLast?_append, Option.mem_def, Option.or_eq_some_iff] at hx
    rcases hx with hx | ⟨-, hx⟩
    · obtain ⟨m, -, rfl⟩ := List.mem_map.mp (List.mem_of_getLast? hx)
      rfl
    · obtain ⟨m, hmem, rfl⟩ := List.mem_map.mp (List.mem_of_getLast? hx)
      exact absurd (hsuspended m hmem) (hns ▸ Bool.false_ne_true)
  case sent =>
    have hfirst : sentBy run ((b.wrote (.proceed horizon run)).map (some run, ·)) =
        sentIn (b.wrote (.proceed horizon run)) := by
      rw [sentBy_map, if_pos rfl]
    change c.pending ++ sentBy run ((b.wrote (.proceed horizon run)).map (some run, ·) ++
      (b.proceed horizon run).chronicle turns) = _
    rw [sentBy_append, hfirst, ← List.append_assoc, hsent,
      List.append_assoc, h.sent, hmap, callsIn_append (ms₁ ++ ms₂), List.map_append,
      List.append_assoc]

end Cons

/-- **A run goes through every history with the answers of its registries.**  By induction on the
turns; the first move after a suspension has the registry from before it. -/
theorem Attended.exists_unfolds {turns : List Turn} {b : Bench} {r : Registry} {c : Course}
    {s : Stage} (h : b.Attended run p r c s) (hord : b.Orderly) (hg : b.gateway = .registry)
    (hquiet : ∀ x ∈ b.chronicle turns, x.1 = some run → x.2.2.changesDevices = false) :
    ∃ steps c', b.Unfolds run r turns c steps c' ∧
      (s.isReady = false → ∀ x ∈ steps.head?, x.1 = r) ∧
      ((∃ s', (b.after turns).runner.progress? run = some (.going s') ∧ s'.StandsOn p c') ∨
        EndsBy b (b.after turns) run c') := by
  induction turns generalizing b r c s with
  | nil =>
    have hnone : Answered ([] : List (Registry × Move)) := ⟨List.forall_mem_nil _, .nil⟩
    refine ⟨[], c, ⟨.nil r b, .nil c, hnone, List.append_nil _⟩, ?_, .inl ⟨s, h.going, h.stands⟩⟩
    intro _ x hx
    cases hx
  | cons t turns ih =>
    obtain ⟨hquiet₁, hquiet₂⟩ := List.forall_mem_append.mp hquiet
    have hord' : (b.turn t).Orderly := hord.turn t
    have hg' : (b.turn t).gateway = .registry := (lasting_gateway _).turn hg t
    by_cases hrun : t.run? = some run
    · obtain ⟨horizon, rfl⟩ : ∃ horizon, t = .proceed horizon run := by
        cases t with
        | proceed horizon other =>
          cases hrun
          exact ⟨horizon, rfl⟩
        | control | devices | clock => cases hrun
      have hwrote : ∀ e ∈ b.wrote (.proceed horizon run), e.2.changesDevices = false := by
        intro e he
        exact hquiet₁ _ (List.mem_map_of_mem he) rfl
      rcases h.proceed hord hg horizon hwrote with
        he | ⟨ms₁, b₁, ms₂, b₂, c₁, hw, hm, hh, ht, ha, hne, hsuspended, hsent, hnext⟩
      · have h' : (b.turn (.proceed horizon run)).Attended run p r c s := by
          rw [turn, he]
          exact h
        obtain ⟨steps, c', hu, hhead, hplace⟩ := ih h' hord' hg' hquiet₂
        exact ⟨steps, c', hu.idle fun _ => he, hhead, hplace.imp_right (·.of_turn hord)⟩
      · -- the moves of this turn come before those of the later ones
        have hfirst : ∀ steps : List (Registry × Move), s.isReady = false →
            ∀ x ∈ (ms₁.map (r, ·) ++ ms₂.map (b.registry, ·) ++ steps).head?, x.1 = r := by
          intro steps hs x hx
          obtain ⟨m, ms, rfl⟩ := List.exists_cons_of_ne_nil (hne hs)
          cases hx
          rfl
        rcases hnext with ⟨s', h', hs'⟩ | ⟨⟨o, ho, hcause⟩, hp⟩
        · obtain ⟨steps, c', hu, hhead, hplace⟩ := ih h' hord' hg' hquiet₂
          exact ⟨_, c', hu.cons h.going hw hm hh ht ha hsuspended (hhead hs') hsent, hfirst steps,
            hplace.imp_right (@EndsBy.of_turn b _ run c' (.proceed horizon run) hord ·)⟩
        · obtain ⟨hmoves, hnone⟩ := movesOver_of_ended turns b.registry hord' ho
          have hu : (b.proceed horizon run).Unfolds run b.registry turns c₁ [] c₁ := by
            refine ⟨hmoves, .nil _, ⟨List.forall_mem_nil _, .nil⟩, ?_⟩
            rw [hp]
            exact hnone
          have hhead : ∀ x ∈ ([] : List (Registry × Move)).head?, x.1 = b.registry :=
            fun x hx => absurd hx (Option.not_mem_none x)
          exact ⟨_, c₁, hu.cons h.going hw hm hh ht ha hsuspended hhead hsent, hfirst [],
            .inr ⟨o, hord'.ended_after ho, hcause⟩⟩
    · obtain ⟨steps, c', hu, hhead, hplace⟩ :=
        ih (h.turn_of_ne hord hrun) hord' hg' hquiet₂
      exact ⟨steps, c', hu.idle fun ht => absurd ht hrun, hhead, hplace.imp_right (·.of_turn hord)⟩

/-! ## 5. What becomes of the commands -/

/-- **A run whose devices come and go.**  The registry of the bench is the directory and the gateway of
the run, and in any history it may become any other one between two turns; only listeners leave it
alone while the run is followed.  The run makes moves along the course of its plan, each with the
registry `r` as it was when the run set about it.

Where it comes to the line of a command, the device is either not connected in `r`, and the run fails
there; or it is, and the next thing that the run does is to hand the command over, unmodified, to the
handler registered in `r`, or to have it refused for being blank.  What comes of the call depends on
`r` alone, so that it does not matter what becomes of the device in the meantime.  The run comes to
every line at most once, and every call is that of a line which it has just come to, so that no
command is handed over twice; and none is refused as one for a device that is unknown or not
connected. -/
theorem deliveries_of_run {b : Bench} {turns : List Turn} {run : Nat} {p : Plan}
    (hreach : b.IsReachable) (hgateway : b.gateway = .registry)
    (hs : b.runner.progress? run = some (.going (.ready p.course)))
    (hquiet : ∀ x ∈ b.chronicle turns, x.1 = some run → x.2.2.changesDevices = false) :
    ∃ steps c, MovesOver run b.registry b turns steps ∧ p.course.Trace (steps.map (·.2)) c ∧
      ((∃ s, (b.after turns).runner.progress? run = some (.going s) ∧ s.StandsOn p c) ∨
        EndsBy b (b.after turns) run c) ∧
      (∀ before r line after cmd, steps = before ++ (r, .told (.cursor (some line))) :: after →
        (line, .command cmd) ∈ p.script.instructions →
        ∃ future o, p.Attends r line cmd (after.map (·.2) ++ future) o ∧
          ∀ res, c = .ended res → future = [] ∧ res = .ok o) ∧
      ((visitsOf (steps.map (·.2))).map (·.1)).Pairwise (· < ·) ∧
      (∀ before r request limit result after,
        steps = before ++ (r, .called request limit result) :: after →
        (∃ earlier line cmd, (line, .command cmd) ∈ p.script.instructions ∧
          request = ⟨cmd.device, cmd.payload⟩ ∧ limit = p.timing.limit ∧
          before = earlier ++ [(r, .told (.cursor (some line))), (r, .foundDevice cmd.device true),
            (r, .told (.log (sentEntry cmd line)))]) ∧
        r.Delivers request limit result ∧
        ∀ e, r.dispatch? request = .error e →
          e = .emptyCommand ∧ Text.allBlank request.command.toList = true) ∧
      sentBy run (b.chronicle turns) = (callsIn (steps.map (·.2))).map (·.1) ++ c.pending := by
  have hattended : b.Attended run p b.registry p.course (.ready p.course) := ⟨hs, .ready, trivial⟩
  obtain ⟨steps, c, hu, -, hplace⟩ :=
    hattended.exists_unfolds (orderly_of_isReachable hreach) hgateway hquiet
  refine ⟨steps, c, hu.moves, hu.trace, hplace, ?_, Plan.pairwise_lines hu.trace, ?_, hu.sent⟩
  · intro before r line after cmd hsteps hi
    exact Plan.attends_of_steps hu.trace hu.answered hsteps hi
  · intro before r request limit result after hsteps
    obtain ⟨earlier, line, cmd, hi, hrequest, hlimit, hbefore, hdelivers⟩ :=
      Plan.call_of_steps hu.trace hu.answered hsteps
    exact ⟨⟨earlier, line, cmd, hi, hrequest, hlimit, hbefore⟩, hdelivers,
      fun e he => hdelivers.eq_emptyCommand he⟩

/-- Two devices, the first of which takes its time. -/
def flickering : Registry :=
  (Registry.empty.register "alpha" .network fun _ => .after 50 (.replied .ok)).register "bravo"
    .network fun _ => .after 5 (.replied .ok)

/-- A bench on which a run of a command for each of them was started. -/
def flickeringBench : Bench :=
  (create 10 pairPlan.timing flickering .registry [] 0).after
    [.control (.start pairPlan.script pairPlan.mode)]

/-- Both devices go away during the first call. -/
def flickeringTurns : List Turn :=
  [.proceed 10 0, .devices ((flickering.setConnected "alpha" false).1.unregister "bravo").1,
    .proceed 1000 0]

/-- The call under way comes to its end, and the run fails at the next command. -/
theorem deliveries_of_flickering :
    flickeringBench.IsReachable ∧
      (flickeringBench.after flickeringTurns).outcome? 0 =
        some (.failed (unconnectedReason ⟨"bravo", "home", ""⟩ 1)) ∧
      ∃ (steps : List (Registry × Move)) (c : Course),
        MovesOver 0 flickeringBench.registry flickeringBench flickeringTurns steps ∧
        (callsIn (steps.map (·.2))).map (·.1) ++ c.pending = [⟨"alpha", "home"⟩] := by
  have hreach : flickeringBench.IsReachable := (isReachable_create _ _ _ _ _ _).after _
  have hs : flickeringBench.runner.progress? 0 = some (.going (.ready pairPlan.course)) := rfl
  have hquiet : ∀ x ∈ flickeringBench.chronicle flickeringTurns, x.1 = some 0 →
      x.2.2.changesDevices = false := by
    decide +kernel
  have hsent : sentBy 0 (flickeringBench.chronicle flickeringTurns) = [⟨"alpha", "home"⟩] := by
    decide +kernel
  obtain ⟨steps, c, hmoves, -, -, -, -, -, hcalls⟩ := deliveries_of_run hreach rfl hs hquiet
  exact ⟨hreach, by decide +kernel, steps, c, hmoves, hcalls.symm.trans hsent⟩

end Bench

end DeviceScript
