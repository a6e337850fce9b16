import DeviceScript.Proofs.Bench.History
import DeviceScript.Proofs.Course.Stopping
/-!
# How a run ends when it is stopped

A stop that is asked for while a run is suspended, or before it has made a move, is the end of the
run as soon as it is followed again.  That takes no time, except that a call under way is awaited to
its end first.  In between the run hands nothing to the gateway and comes to no line; it tells what
was still to be told of what came before the stop (`Stage.Heralds`), and then takes its leave
(`Notice.IsParting`).

The outcome is stopped, unless a listener crashes in the middle of what is told, which breaks the
run off.  `Bench.stop_ends_run` puts this together for every bench that came about, every kind of
suspension and everything that may happen between the stop and the next move, a continue and a timer
that is due included.
-/

namespace DeviceScript

/-! ## 1. Stages -/

namespace Stage

/-- What a run at this stage has still to tell before it can take notice of a stop: a run that has
made no move opens, and the result of a call is logged.  `handed` is the command last handed to the
gateway. -/
inductive Heralds (p : Plan) (handed : Option Request) : Stage → List Notice → Prop
  | ready : Heralds p handed (.ready p.course) p.openingNotices
  | resting (due : Nat) (next : Wake → Course) : Heralds p handed (.resting due next) []
  | calling (due : Option Nat) (result : Option CallResult) (next : Option CallResult → Course)
      {c : DeviceCommand} {line : Nat} (hc : (line, .command c) ∈ p.script.instructions)
      (hr : handed = some ⟨c.device, c.payload⟩) :
      Heralds p handed (.calling due result next)
        [.log (resultEntry c line p.timing.limit result)]
  | parked (next : Wake → Course) : Heralds p handed (.parked next) []

/-- The moment at which a run at this stage takes notice of a stop. -/
def endsAt (now : Nat) : Stage → Nat
  | calling (some due) _ _ => max now due
  | _ => now

/-- A call is under way that does not end by the horizon. -/
def IsAwaiting (horizon : Nat) : Stage → Prop
  | calling due _ _ => ∀ d, due = some d → horizon < d
  | _ => False

end Stage

namespace Bench

/-! ## 2. Closing -/

/-- **The run closes at once.**  From the bench `b` it comes to its end with this outcome on the
bench `b'`; no time passes, nothing is handed over, and no member hears anything but the notices
`ns`, each at most once and in this order. -/
structure Closes (run : Nat) (b : Bench) (o : RunOutcome) (ns : List Notice)
    (js : List (Nat × Happening)) (b' : Bench) : Prop where
  now : b'.now = b.now
  journal : b'.journal = b.journal ++ js
  times : ∀ e ∈ js, e.1 = b.now
  unsent : ∀ e ∈ js, ∀ r, e.2 ≠ .sent r
  heard : ∀ m, (heardBy m js).Sublist ns
  outcome : b'.runner.progress? run = some (.ended o)

variable {run horizon : Nat} {b b' b₂ : Bench} {o : RunOutcome} {n : Notice} {ns ns' : List Notice}
  {js js' : List (Nat × Happening)}

theorem Closes.weaken (h : Closes run b o ns js b') (hs : ns.Sublist ns') :
    Closes run b o ns' js b' :=
  { h with heard := fun m => (h.heard m).trans hs }

/-- A notice that is told before. -/
theorem Closes.tell {crash : Option Crash} (h : Closes run b₂ o ns js' b')
    (ht : Tells 0 n (b.observe n) js (b₂, crash)) : Closes run b o (n :: ns) (js ++ js') b' where
  now := h.now.trans ht.calm.now
  journal := by
    have hj : b₂.journal = b.journal ++ js := ht.calm.journal
    rw [h.journal, hj, List.append_assoc]
  times e he := by
    rcases List.mem_append.mp he with he | he
    · exact ht.calm.times e he
    · exact (h.times e he).trans ht.calm.now
  unsent e he := by
    rcases List.mem_append.mp he with he | he
    · exact ht.calm.unsent e he
    · exact h.unsent e he
  heard m := by
    rw [heardBy_append]
    exact (ht.heard m).append (h.heard m)
  outcome := h.outcome

/-- A run that only gets its outcome tells nothing. -/
theorem closes_nil (hnow : b'.now = b.now) (hj : b'.journal = b.journal)
    (ho : b'.runner.progress? run = some (.ended o)) : Closes run b o [] [] b' where
  now := hnow
  journal := hj.trans (List.append_nil _).symm
  times _ he := absurd he List.not_mem_nil
  unsent _ he := absurd he List.not_mem_nil
  heard _ := .slnil
  outcome := ho

theorem IsSole.closes_conclude (h : b.IsSole run) (o : RunOutcome) :
    Closes run b o [] [] (b.conclude run o) :=
  closes_nil rfl rfl (h.progress?_conclude o)

theorem IsSole.closes_lose (h : b.IsSole run) (c : Crash) :
    Closes run b (.failed c.lostReason) [] [] (b.lose run c) :=
  closes_nil rfl rfl (h.progress?_lose c)

/-- The run closes, and all that it still tells is that it takes its leave. -/
def Leaves (run : Nat) (b b' : Bench) : Prop :=
  ∃ o ns js, Closes run b o ns js b' ∧ ∀ n ∈ ns, n.IsParting

/-- The report of a run that was broken off closes the run. -/
theorem IsSole.leaves_report {next : Course} (h : b.IsSole run) (hn : n.IsParting)
    (hnext : ∀ b', b'.IsSole run →
      Leaves run b' (follow run horizon (fun c b => b.lose run c) next b')) :
    Leaves run b (follow run horizon (fun c b => b.lose run c) (.tell n next) b) := by
  obtain ⟨js, ht, -, hsole⟩ := h.tells n
  rw [follow]
  split
  · rename_i b₁ c hc
    rw [hc] at ht hsole
    refine ⟨_, _, _, (hsole.closes_lose c).tell ht, ?_⟩
    intro n' hn'
    rw [List.mem_singleton.mp hn']
    exact hn
  · rename_i b₁ hc
    rw [hc] at ht hsole
    obtain ⟨o, ns, js', hcl, hp⟩ := hnext b₁ hsole
    refine ⟨o, n :: ns, js ++ js', hcl.tell ht, ?_⟩
    intro n' hn'
    rcases List.mem_cons.mp hn' with rfl | hn'
    · exact hn
    · exact hp n' hn'

theorem IsSole.leaves_abort (h : b.IsSole run) (horizon : Nat) (c : Crash) :
    Leaves run b (abort run horizon c b) := by
  have h₀ : (b.setSignals run (b.runner.signals run).abandon).IsSole run :=
    h.goes (goes_setSignals fun hs => hs)
  obtain ⟨o, ns, js, hcl, hp⟩ : Leaves run
      (b.setSignals run (b.runner.signals run).abandon) (abort run horizon c b) := by
    refine h₀.leaves_report trivial fun b₁ h₁ => ?_
    refine h₁.leaves_report rfl fun b₂ h₂ => ?_
    refine h₂.leaves_report ⟨nofun, nofun⟩ fun b₃ h₃ => ?_
    exact ⟨_, [], [], h₃.closes_conclude _, fun _ hn => absurd hn List.not_mem_nil⟩
  exact ⟨o, ns, js, ⟨hcl.now, hcl.journal, hcl.times, hcl.unsent, hcl.heard, hcl.outcome⟩, hp⟩

/-! ## 3. Winding down -/

/-- **The run stops at once.**  It tells the notices `opening` and takes its leave, and its outcome
is stopped, unless a listener crashes. -/
def Stops (run : Nat) (opening : List Notice) (b b' : Bench) : Prop :=
  ∃ o parting js, Closes run b o (opening ++ parting) js b' ∧ (∀ n ∈ parting, n.IsParting) ∧
    ((o = .stopped ∧ ∀ m, m < b.members.length → heardBy m js = opening ++ parting) ∨
      ¬ b.IsSteady ∧ ∃ e ∈ js, ∃ m c, e.2 = .crashed m c)

/-- A parting notice may be counted among those with which the run takes its leave. -/
theorem Stops.leave (h : Stops run [n] b b') (hn : n.IsParting) : Stops run [] b b' := by
  obtain ⟨o, parting, js, hcl, hp, ho⟩ := h
  refine ⟨o, n :: parting, js, hcl, ?_, ho⟩
  intro n' hn'
  rcases List.mem_cons.mp hn' with rfl | hn'
  · exact hn
  · exact hp n' hn'

/-- One more notice before. -/
theorem IsSole.stops_tell {next : Course} {opening : List Notice} (h : b.IsSole run)
    (hstop : b.isStopRequested run = true)
    (hnext : ∀ b', b'.IsSole run → b'.isStopRequested run = true →
      Stops run opening b' (follow run horizon (abort run horizon) next b')) :
    Stops run (n :: opening) b (follow run horizon (abort run horizon) (.tell n next) b) := by
  obtain ⟨js, ht, hg, hsole⟩ := h.tells n
  have hsize : (b.observe n).members.length = b.members.length := by
    rw [(observe_eq b n).2]
  rw [follow]
  split
  · rename_i b₁ c hc
    rw [hc] at ht hsole
    obtain ⟨o, ns, js', hcl, hp⟩ := hsole.leaves_abort horizon c
    refine ⟨o, ns, js ++ js', ?_, hp, .inr ⟨?_, ?_⟩⟩
    · refine (hcl.tell ht).weaken ?_
      exact (List.sublist_append_right opening ns).cons_cons n
    · intro hsteady
      cases ht.steady ((goes_observe b n).steady hsteady)
    · obtain ⟨m, -, -, ⟨moment, hm⟩, -⟩ := ht.crash c rfl
      exact ⟨_, List.mem_append_left _ hm, m, c, rfl⟩
  · rename_i b₁ hc
    rw [hc] at ht hsole hg
    obtain ⟨o, parting, js', hcl, hp, ho⟩ := hnext b₁ hsole (hg.stop run hstop)
    refine ⟨o, parting, js ++ js', hcl.tell ht, hp, ?_⟩
    rcases ho with ⟨rfl, hall⟩ | ⟨hsteady, e, he, m, c, hm⟩
    · refine .inl ⟨rfl, fun m hm => ?_⟩
      have h₁ : heardBy m js = [n] := ht.all rfl m (Nat.zero_le m) (hsize ▸ hm)
      have h₂ := hall m (by rw [ht.calm.size, hsize]; exact hm)
      rw [heardBy_append, h₁, h₂]
      rfl
    · exact .inr ⟨fun hs => hsteady (hg.steady hs), e, List.mem_append_right _ he, m, c, hm⟩

/-- **A course that winds down stops at once.**  By induction on the course: every question about a
stop is answered with yes, and no rest and no pause takes any time. -/
theorem stops_follow {c : Course} (hw : c.WindsDown) : ∀ {b : Bench}, b.IsSole run →
    b.isStopRequested run = true →
    Stops run [] b (follow run horizon (abort run horizon) c b) := by
  induction c with
  | ended r =>
    intro b h _
    obtain rfl : r = .ok .stopped := hw
    exact ⟨_, [], [], h.closes_conclude _, fun _ hn => absurd hn List.not_mem_nil,
      .inl ⟨rfl, fun _ _ => rfl⟩⟩
  | tell n next ih =>
    intro b h hstop
    exact (h.stops_tell hstop fun b' h' hstop' => ih hw.2 h' hstop').leave hw.1
  | askStop next ih =>
    intro b h hstop
    rw [follow, hstop]
    exact ih true hw h hstop
  | rest nanos next ih =>
    intro b h hstop
    have hr : b.restEnd? run horizon (b.now + wholeMillis nanos) = some (.stopped, b) := by
      rw [restEnd?, if_pos hstop]
    simp only [follow, hr]
    exact ih .stopped hw h hstop
  | park next ih =>
    intro b h hstop
    have hp : b.pauseEnd? run = some .stopped := if_pos hstop
    simp only [follow, hp]
    exact ih .stopped hw h hstop
  | disarm next ih =>
    intro b h hstop
    have hg : b.Goes [] (b.setSignals run (b.runner.signals run).disarm) :=
      goes_setSignals fun hs => hs
    obtain ⟨o, parting, js, hcl, hp, ho⟩ := ih hw (h.goes hg) (hg.stop run hstop)
    exact ⟨o, parting, js,
      ⟨hcl.now, hcl.journal, hcl.times, hcl.unsent, hcl.heard, hcl.outcome⟩, hp, ho⟩
  | askAny | askDevice | call | arm => exact hw.elim

/-- So does a course that first tells some notices. -/
theorem stops_follow_foldr {c : Course} (hw : c.WindsDown) :
    ∀ (opening : List Notice) {b : Bench}, b.IsSole run → b.isStopRequested run = true →
      Stops run opening b (follow run horizon (abort run horizon) (opening.foldr .tell c) b)
  | [], _, h, hstop => stops_follow hw h hstop
  | _ :: opening, _, h, hstop =>
    h.stops_tell hstop fun _ h' hstop' => stops_follow_foldr hw opening h' hstop'

/-! ## 4. A run that is followed after the stop -/

variable {s : Stage}

/-- A call under way is awaited. -/
theorem proceed_of_isAwaiting (hs : b.runner.progress? run = some (.going s))
    (hw : s.IsAwaiting horizon) : b.proceed horizon run = b := by
  have hp := proceed_of_going horizon hs
  cases s with
  | ready | resting | parked => exact hw.elim
  | calling due result next =>
    have hr : b.callEnd? horizon due = none := by
      cases due with
      | none => rfl
      | some d => exact if_neg (Nat.not_le_of_lt (hw d rfl))
    rw [hp, resume, hr]

/-- **A run that is followed after a stop stops**, at whatever stage it was. -/
theorem Orderly.stops_proceed (h : b.Orderly) (hs : b.runner.progress? run = some (.going s))
    (hstop : b.isStopRequested run = true)
    (hlines : s.isReady = true → ∃ p : Plan, s = .ready p.course ∧ p.script.lines ≠ [])
    (hany : s.isReady = true → b.registry.hasAny = true) (hw : ¬ s.IsAwaiting horizon) :
    ∃ p opening, s.Heralds p b.requests.getLast? opening ∧
      Stops run opening { b with now := s.endsAt b.now } (b.proceed horizon run) := by
  have hsole := h.isSole hs
  obtain ⟨p, ms, s₀, hon, -, -⟩ := (h.going run s hs).2
  have hp := proceed_of_going horizon hs
  have hyields : ∀ {c : Course}, p.course.Trace ms c → c.Yields p :=
    fun ht => ht.keeps (P := fun c => c.Yields p) Course.Moves.yields p.course_yields
  cases hon with
  | ready =>
    obtain ⟨q, hq, hl⟩ := hlines rfl
    rw [hq] at hp ⊢
    refine ⟨q, q.openingNotices, .ready, ?_⟩
    obtain ⟨x, more, hx⟩ := Script.exists_instructions_eq_cons hl
    have hf : b.resume run horizon (.ready q.course) = follow run horizon (abort run horizon)
        (q.openingNotices.foldr .tell
          (q.lines q.script.lastExecutable (x :: more) ⟨.running, none⟩)) b := by
      rw [resume, q.course_eq, follow, hany rfl, if_pos rfl, hx]
    rw [hp, hf]
    exact stops_follow_foldr (Plan.windsDown_lines rfl) _ hsole hstop
  | @resting _ nanos due next ht =>
    refine ⟨p, [], .resting due next, ?_⟩
    have hr : b.restEnd? run horizon due = some (.stopped, b) := if_pos hstop
    rw [hp, resume, hr]
    exact stops_follow (hyields ht).1 hsole hstop
  | @calling _ request limit due result next ht hr =>
    obtain ⟨⟨c, line, rest, hc, rfl, rfl, hnext, hwd⟩, -⟩ := hyields ht
    refine ⟨p, _, .calling due result next hc hr, ?_⟩
    cases due with
    | none =>
      refine absurd ?_ hw
      intro d hd
      cases hd
    | some d =>
      have hd : d ≤ horizon := by
        refine Nat.le_of_not_lt fun hlt => hw fun d' hd' => ?_
        cases hd'
        exact hlt
      have hce : b.callEnd? horizon (some d) = some { b with now := max b.now d } := if_pos hd
      have hg := goes_clock b (max b.now d)
      rw [hp, resume, hce, hnext]
      exact stops_follow_foldr hwd [_] (hsole.goes hg) (hg.stop run hstop)
  | @parked _ next ht =>
    refine ⟨p, [], .parked next, ?_⟩
    have hpe : b.pauseEnd? run = some .stopped := if_pos hstop
    rw [hp, resume, hpe]
    exact stops_follow (hyields ht).1 hsole hstop

/-! ## 5. Between the stop and the end -/

/-- Since the bench was `b₀` the run has stayed at its stage, and nothing was written into the
journal. -/
structure Stands (run : Nat) (s : Stage) (b₀ b : Bench) : Prop where
  orderly : b.Orderly
  going : b.runner.progress? run = some (.going s)
  stop : b.isStopRequested run = true
  journal : b.journal = b₀.journal

theorem Stands.turn {b₀ : Bench} (h : Stands run s b₀ b) :
    ∀ {t : Turn}, (∀ horizon, t ≠ .proceed horizon run) →
      Stands run s b₀ (b.turn t) ∧ ((∀ moment, t ≠ .clock moment) → (b.turn t).now = b.now)
  | .control c, _ => by
    obtain ⟨b', a, hc, hcalm⟩ :=
      calm_control (h.orderly.isSole h.going).isBusy (fun n b => b.tell n) c
    rw [Bench.turn, hc]
    refine ⟨⟨h.orderly.calm hcalm, (hcalm.progress run).trans h.going, hcalm.stop run h.stop, ?_⟩,
      fun _ => hcalm.now⟩
    rw [hcalm.journal, List.append_nil, h.journal]
  | .devices r, _ => ⟨⟨h.orderly.turn (.devices r), h.going, h.stop, h.journal⟩, fun _ => rfl⟩
  | .clock t, _ =>
    ⟨⟨h.orderly.turn (.clock t), h.going, h.stop, h.journal⟩, fun ht => absurd rfl (ht t)⟩
  | .proceed horizon other, hne => by
    have hother : other ≠ run := by
      rintro rfl
      exact hne horizon rfl
    have hsole := h.orderly.isSole h.going
    rw [Bench.turn, proceed_of_not_going fun s' hs' => hother (hsole.sole other s' hs')]
    exact ⟨h, fun _ => rfl⟩

/-- **A run waits until it is followed**, whatever else happens. -/
theorem Stands.after {b₀ : Bench} : ∀ {turns : List Turn} {b : Bench}, Stands run s b₀ b →
    (∀ horizon, .proceed horizon run ∉ turns) →
    Stands run s b₀ (b.after turns) ∧
      ((∀ moment, .clock moment ∉ turns) → (b.after turns).now = b.now)
  | [], _, h, _ => ⟨h, fun _ => rfl⟩
  | t :: _, b, h, ht => by
    obtain ⟨h₁, hnow₁⟩ := h.turn fun horizon ht' => ht horizon (ht' ▸ List.mem_cons_self)
    obtain ⟨h₂, hnow₂⟩ := h₁.after fun horizon hm => ht horizon (List.mem_cons_of_mem t hm)
    refine ⟨h₂, fun hclock => ?_⟩
    exact (hnow₂ fun moment hm => hclock moment (List.mem_cons_of_mem t hm)).trans
      (hnow₁ fun moment ht' => hclock moment (ht' ▸ List.mem_cons_self))

/-- An operator who asks for a stop of a run that is going has asked for it. -/
theorem Orderly.isStopRequested_control (h : b.Orderly)
    (hs : b.runner.progress? run = some (.going s)) {c : Control}
    (hc : c = .stop ∨ c = .stopRun run) : (b.turn (.control c)).isStopRequested run = true := by
  have hstop : ((b.runner.stopRun run).signals run).stop = true := Runner.stop_stopRun hs
  rcases hc with rfl | rfl
  · have ha : b.runner.stopActive = (b.runner.stopRun run, true) := by
      rw [Runner.stopActive, (h.isSole hs).active]
    rw [Bench.turn, Bench.control, ha]
    exact hstop
  · exact hstop

/-! ## 6. The law of the stop -/

/-- **A stop ends a run.**  On the bench `b₀` a run is suspended, or has made no move yet and its
script has a line, and a stop is asked for.  Then anything may happen except that the run is
followed; the run stays where it is, nothing goes into the journal, and time passes only if the
clock moves on.  When it is followed, and if it had made no move finds a device connected, it waits
for the end of a call under way and otherwise comes to its end at that moment: nothing is handed
over, the members hear what was still to be told and parting notices, and the outcome, which stands
for ever, is stopped.  Only the crash of a listener can make it another one. -/
theorem stop_ends_run {b₀ : Bench} {between : List Turn} (hreach : b₀.IsReachable)
    (hs : b₀.runner.progress? run = some (.going s)) (hstop : b₀.isStopRequested run = true)
    (hlines : s.isReady = true → ∃ p : Plan, s = .ready p.course ∧ p.script.lines ≠ [])
    (hbetween : ∀ horizon, .proceed horizon run ∉ between) (hb : b = b₀.after between)
    (hany : s.isReady = true → b.registry.hasAny = true) (hb' : b' = b.proceed horizon run) :
    b.runner.progress? run = some (.going s) ∧ b.journal = b₀.journal ∧
      ((∀ moment, .clock moment ∉ between) → b.now = b₀.now) ∧
      (s.IsAwaiting horizon → b' = b) ∧
      (¬ s.IsAwaiting horizon → ∃ p opening parting js o,
        s.Heralds p b₀.requests.getLast? opening ∧ (∀ n ∈ parting, n.IsParting) ∧
        b'.now = s.endsAt b.now ∧ b'.journal = b.journal ++ js ∧
        (∀ e ∈ js, e.1 = s.endsAt b.now ∧ ∀ r, e.2 ≠ .sent r) ∧
        (∀ m, (heardBy m js).Sublist (opening ++ parting)) ∧
        (∀ later, (b'.after later).outcome? run = some o) ∧
        ((o = .stopped ∧ ∀ m, m < b.members.length → heardBy m js = opening ++ parting) ∨
          ¬ b.IsSteady ∧ ∃ e ∈ js, ∃ m c, e.2 = .crashed m c)) := by
  obtain ⟨hstands, hnow⟩ : Stands run s b₀ b ∧
      ((∀ moment, .clock moment ∉ between) → b.now = b₀.now) := by
    rw [hb]
    exact Stands.after ⟨orderly_of_isReachable hreach, hs, hstop, rfl⟩ hbetween
  have hrequests : b.requests = b₀.requests := by
    rw [requests, requests, hstands.journal]
  refine ⟨hstands.going, hstands.journal, hnow, ?_, ?_⟩
  · intro hw
    rw [hb', proceed_of_isAwaiting hstands.going hw]
  · intro hw
    obtain ⟨p, opening, hh, o, parting, js, hcl, hp, ho⟩ :=
      hstands.orderly.stops_proceed hstands.going hstands.stop hlines hany hw
    rw [← hb'] at hcl
    rw [hrequests] at hh
    have hord : b'.Orderly := by
      rw [hb']
      exact hstands.orderly.proceed horizon run
    refine ⟨p, opening, parting, js, o, hh, hp, hcl.now, hcl.journal,
      fun e he => ⟨hcl.times e he, hcl.unsent e he⟩, hcl.heard, ?_, ho⟩
    intro later
    rw [outcome?, hord.ended_after hcl.outcome]
    rfl

/-- Whether a run waits at a pause. -/
def isParked (b : Bench) (run : Nat) : Bool :=
  match b.runner.progress? run with
  | some (.going (.parked _)) => true
  | _ => false

theorem exists_of_isParked (h : b.isParked run = true) :
    ∃ next, b.runner.progress? run = some (.going (.parked next)) := by
  unfold isParked at h
  split at h
  · rename_i next hp
    exact ⟨next, hp⟩
  · cases h

/-- A bench before a listener that does nothing. -/
def watched : Bench :=
  create 10 {} (Registry.empty.register "alpha" .network fun _ => .after 5 (.replied .ok))
    .registry [.listener (fun _ _ => []) []] 0

/-- A run that has come to its first pause and gets a continue and a stop at once. -/
def pausing : Bench :=
  watched.after [.control (.start ⟨none, ["alpha.home", "alpha.park"]⟩ .singleBlock),
    .proceed 1000 0, .control .continueRun, .control .stop]

theorem stop_ends_pausing :
    pausing.IsReachable ∧ pausing.isParked 0 = true ∧ pausing.isStopRequested 0 = true ∧
      (pausing.proceed 1000 0).outcome? 0 = some .stopped ∧
      (pausing.proceed 1000 0).now = pausing.now := by
  have hreach : pausing.IsReachable := by
    unfold pausing watched
    exact (isReachable_create _ _ _ _ _ _).after _
  have hparked : pausing.isParked 0 = true := by decide +kernel
  have hstop : pausing.isStopRequested 0 = true := by decide +kernel
  have hsteady : pausing.IsSteady := by
    unfold pausing watched
    refine (orderly_create _ _ _ _ _ _).isSteady_after fun m hm => ?_
    rw [List.mem_singleton.mp hm]
    exact fun _ _ _ => List.not_mem_nil
  obtain ⟨next, hs⟩ := exists_of_isParked hparked
  have hlines : (Stage.parked next).isReady = true →
      ∃ p : Plan, Stage.parked next = .ready p.course ∧ p.script.lines ≠ [] := nofun
  have hbetween : ∀ horizon, Turn.proceed horizon 0 ∉ ([] : List Turn) :=
    fun _ => List.not_mem_nil
  have hany : (Stage.parked next).isReady = true → pausing.registry.hasAny = true := nofun
  obtain ⟨-, -, -, -, hend⟩ := stop_ends_run hreach hs hstop hlines hbetween
    (after_nil pausing).symm hany (Eq.refl (pausing.proceed 1000 0))
  obtain ⟨p, opening, parting, js, o, -, -, hnow, -, -, -, ho, hlast⟩ := hend id
  rcases hlast with ⟨rfl, -⟩ | ⟨hns, -⟩
  · exact ⟨hreach, hparked, hstop, after_nil (pausing.proceed 1000 0) ▸ ho [], hnow⟩
  · exact absurd hsteady hns

end Bench

end DeviceScript
