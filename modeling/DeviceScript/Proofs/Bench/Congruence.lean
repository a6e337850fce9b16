import DeviceScript.Proofs.Bench.Continues
/-!
# What happens alike on two benches

Two benches may differ in something that nothing depends on, such as a request that nobody looks at
any more.  Then whatever happens to both of them happens alike: they are told the same, asked the same
and answer the same, and differ in no more than that afterwards.

To show it for one such difference it is enough to look at the single operations of a runner
(`Runner.Congruence`).  What a bench does besides is the same on both, so the rest is proved here once:
benches whose runners are related stay so when a notice is told, whatever listeners do thereupon
(`Bench.OnRunners.tell`), when a run is followed (`Bench.OnRunners.follow`), and over all histories
(`Bench.OnRunners.after`).  The proof follows the definitions, with one lemma for each of them.

If all runs go on alike on such benches, they look alike now and whatever happens
(`Bench.OnRunners.indistinguishable`).
-/

namespace DeviceScript

/-- **The relation between runners is kept by all operations**, and related runners show and answer
the same.  Only the runs with `Follows` are followed alike; no other run can be going. -/
structure Runner.Congruence (R : Runner → Runner → Prop) (Follows : Nat → Prop) : Prop where
  active {r r' : Runner} (h : R r r') : r'.active = r.active
  projector {r r' : Runner} (h : R r r') : r'.projector = r.projector
  log {r r' : Runner} (h : R r r') : r'.log = r.log
  progress {r r' : Runner} (h : R r r') (run : Nat) : r'.progress? run = r.progress? run
  going {r r' : Runner} (h : R r r') {run : Nat} {s : Stage}
    (hs : r.progress? run = some (.going s)) : Follows run
  observe {r r' : Runner} (h : R r r') (moment : Timestamp) (n : Notice) :
    R (r.observe moment n) (r'.observe moment n)
  /-- A run is started on both or on neither, for the same reason. -/
  start {r r' : Runner} (h : R r r') (anyDevice : Bool) (course : Course) :
    (∃ e, r.start? anyDevice course = .error e ∧ r'.start? anyDevice course = .error e) ∨
      ∃ r₁ r₁', r.start? anyDevice course = .ok r₁ ∧ r'.start? anyDevice course = .ok r₁' ∧ R r₁ r₁'
  stopRun {r r' : Runner} (h : R r r') (run : Nat) : R (r.stopRun run) (r'.stopRun run)
  continueRun {r r' : Runner} (h : R r r') (run : Nat) :
    R (r.continueRun run).1 (r'.continueRun run).1 ∧
      (r'.continueRun run).2 = (r.continueRun run).2
  stops {r r' : Runner} (h : R r r') {run : Nat} (hrun : Follows run) :
    (r'.signals run).stop = (r.signals run).stop
  released {r r' : Runner} (h : R r r') {run : Nat} (hrun : Follows run) :
    (r'.signals run).gate = .released ↔ (r.signals run).gate = .released
  arm {r r' : Runner} (h : R r r') {run : Nat} (hrun : Follows run) :
    R (r.setSignals run (r.signals run).arm) (r'.setSignals run (r'.signals run).arm)
  disarm {r r' : Runner} (h : R r r') {run : Nat} (hrun : Follows run) :
    R (r.setSignals run (r.signals run).disarm) (r'.setSignals run (r'.signals run).disarm)
  abandon {r r' : Runner} (h : R r r') {run : Nat} (hrun : Follows run) :
    R (r.setSignals run (r.signals run).abandon) (r'.setSignals run (r'.signals run).abandon)
  setStage {r r' : Runner} (h : R r r') {run : Nat} (hrun : Follows run) (s : Stage) :
    R (r.setStage run s) (r'.setStage run s)
  setOutcome {r r' : Runner} (h : R r r') {run : Nat} (hrun : Follows run) (o : RunOutcome) :
    R (r.setOutcome run o) (r'.setOutcome run o)
  release {r r' : Runner} (h : R r r') (run : Nat) : R (r.release run) (r'.release run)

namespace Bench

/-- The benches differ in their runners alone, and these are related. -/
def OnRunners (R : Runner → Runner → Prop) (b b' : Bench) : Prop :=
  ∃ r, b' = b.withRunner r ∧ R b.runner r

/-- What comes out is the same, and so are the benches as far as this relation tells. -/
def Alike {α : Type} (R : Bench → Bench → Prop) (out out' : Bench × α) : Prop :=
  R out.1 out'.1 ∧ out'.2 = out.2

theorem Alike.exists_eq {α : Type} {R : Bench → Bench → Prop} {out out' : Bench × α}
    (h : Alike R out out') : ∃ b b' x, out = (b, x) ∧ out' = (b', x) ∧ R b b' :=
  ⟨_, _, _, rfl, Prod.ext rfl h.2, h.1⟩

namespace OnRunners

variable {R : Runner → Runner → Prop} {Follows : Nat → Prop} {b b' : Bench} {run horizon : Nat}
  {telling : Notice → Bench → Bench × Option Crash}

/-! ## 1. What the benches have in common -/

section Common

variable (h : OnRunners R b b')
include h

theorem now_eq : b'.now = b.now := by
  obtain ⟨r, rfl, -⟩ := h
  rfl

theorem registry_eq : b'.registry = b.registry := by
  obtain ⟨r, rfl, -⟩ := h
  rfl

theorem note (x : Happening) : OnRunners R (b.note x) (b'.note x) := by
  obtain ⟨r, rfl, h⟩ := h
  exact ⟨r, rfl, h⟩

/-- The clock may move. -/
theorem clock (moment : Nat) :
    OnRunners R { b with now := moment } { b' with now := moment } := by
  obtain ⟨r, rfl, h⟩ := h
  exact ⟨r, rfl, h⟩

/-- Devices may come and go. -/
theorem devices (registry : Registry) :
    OnRunners R { b with registry := registry } { b' with registry := registry } := by
  obtain ⟨r, rfl, h⟩ := h
  exact ⟨r, rfl, h⟩

/-- What keeps the runners related keeps the benches related. -/
theorem withRunner {f : Runner → Runner} (hf : ∀ {r r'}, R r r' → R (f r) (f r')) :
    OnRunners R (b.withRunner (f b.runner)) (b'.withRunner (f b'.runner)) := by
  obtain ⟨r, rfl, h⟩ := h
  exact ⟨f r, rfl, hf h⟩

end Common

/-! ## 2. What is told -/

section Tell

variable (ht : ∀ n b b', OnRunners R b b' → Alike (OnRunners R) (telling n b) (telling n b'))
include ht

theorem tellAll : ∀ (ns : List Notice) {b b' : Bench}, OnRunners R b b' →
    Alike (OnRunners R) (Bench.tellAll telling ns b) (Bench.tellAll telling ns b')
  | [], _, _, h => ⟨h, rfl⟩
  | n :: ns, b, b', h => by
    obtain ⟨b₁, b₁', crash, he, he', h₁⟩ := (ht n b b' h).exists_eq
    rw [Bench.tellAll, Bench.tellAll, he, he']
    cases crash with
    | none => exact tellAll ns h₁
    | some c => exact ⟨h₁, rfl⟩

end Tell

variable (hR : Runner.Congruence R Follows)
include hR

theorem start (h : OnRunners R b b') (script : Script) (mode : RunMode) :
    Alike (OnRunners R) (b.control telling (.start script mode))
      (b'.control telling (.start script mode)) := by
  obtain ⟨r, rfl, h⟩ := h
  simp only [Bench.control]
  rcases hR.start h b.registry.hasAny (Plan.course ⟨script, mode, b.timing⟩) with
    ⟨e, he, he'⟩ | ⟨r₁, r₁', hok, hok', h₁⟩
  · rw [he, Bench.withRunner, he']
    exact ⟨⟨r, rfl, h⟩, rfl⟩
  · rw [hok, Bench.withRunner, hok']
    exact ⟨⟨r₁', rfl, h₁⟩, rfl⟩

theorem continueRun (h : OnRunners R b b') (run : Nat) :
    Alike (OnRunners R)
      (b.withRunner (b.runner.continueRun run).1,
        (.ok (.flag (b.runner.continueRun run).2) : Except Crash Answer))
      (b'.withRunner (b'.runner.continueRun run).1,
        .ok (.flag (b'.runner.continueRun run).2)) := by
  obtain ⟨r, rfl, h⟩ := h
  obtain ⟨h₁, h₂⟩ := hR.continueRun h run
  exact ⟨⟨_, rfl, h₁⟩, congrArg (fun x => Except.ok (Answer.flag x)) h₂⟩

/-- **What an operator does** leads from related benches to related benches, and is answered alike. -/
theorem control
    (ht : ∀ n b b', OnRunners R b b' → Alike (OnRunners R) (telling n b) (telling n b'))
    (h : OnRunners R b b') (c : Control) :
    Alike (OnRunners R) (b.control telling c) (b'.control telling c) := by
  have hactive : b'.runner.active = b.runner.active := by
    obtain ⟨r, rfl, h⟩ := h
    exact hR.active h
  cases c with
  | start script mode => exact h.start hR script mode
  | stop =>
    rw [Bench.control, Bench.control, Runner.stopActive, Runner.stopActive, hactive]
    cases b.runner.active with
    | none => exact ⟨h, rfl⟩
    | some active => exact ⟨h.withRunner fun h => hR.stopRun h active, rfl⟩
  | continueRun =>
    rw [Bench.control, Bench.control, Runner.continueActive, Runner.continueActive, hactive]
    cases b.runner.active with
    | none => exact ⟨h, rfl⟩
    | some active => exact h.continueRun hR active
  | stopRun run => exact ⟨h.withRunner fun h => hR.stopRun h run, rfl⟩
  | continueThe run => exact h.continueRun hR run
  | reset =>
    have hn : b'.runner.resetNotices? = b.runner.resetNotices? := by
      obtain ⟨r, rfl, h⟩ := h
      have hstate : r.state = b.runner.state := congrArg (·.state) (hR.projector h)
      rw [Bench.withRunner, Runner.resetNotices?, Runner.resetNotices?, hR.active h, hstate]
    rw [Bench.control, Bench.control, hn]
    cases b.runner.resetNotices? with
    | error e => exact ⟨h, rfl⟩
    | ok ns =>
      obtain ⟨b₁, b₁', crash, he, he', h₁⟩ := (tellAll ht ns h).exists_eq
      simp only [he, he']
      cases crash with
      | none | some c => exact ⟨h₁, rfl⟩
  | setConnected name connected =>
    obtain ⟨r, rfl, h⟩ := h
    exact ⟨⟨r, rfl, h⟩, rfl⟩

theorem perform
    (ht : ∀ n b b', OnRunners R b b' → Alike (OnRunners R) (telling n b) (telling n b'))
    (member : Nat) : ∀ (acts : List Act) {b b' : Bench}, OnRunners R b b' →
      Alike (OnRunners R) (Bench.perform telling member acts b) (Bench.perform telling member acts b')
  | [], _, _, h => ⟨h, rfl⟩
  | .crash c :: _, _, _, h => ⟨h.note _, rfl⟩
  | .control c :: acts, b, b', h => by
    obtain ⟨b₁, b₁', answer, he, he', h₁⟩ := (h.control hR ht c).exists_eq
    rw [Bench.perform, Bench.perform, he, he']
    cases answer with
    | error crash => exact ⟨h₁, rfl⟩
    | ok a => exact perform ht member acts (h₁.note _)

theorem inform (h : OnRunners R b b') (member : Nat) (n : Notice) :
    Alike (OnRunners R) (b.inform member n) (b'.inform member n) := by
  obtain ⟨r, rfl, h⟩ := h
  have hm : (b.withRunner r).members[member]? = b.members[member]? := rfl
  have hg : (b.withRunner r).runner.glimpse = b.runner.glimpse := by
    rw [Bench.withRunner, Runner.glimpse, Runner.glimpse, hR.projector h, hR.log h]
  unfold Bench.inform
  rw [hm, hg]
  cases b.members[member]? with
  | none => exact ⟨⟨r, rfl, h⟩, rfl⟩
  | some m => exact ⟨⟨r, rfl, h⟩, rfl⟩

theorem tellFrom {act : Nat → List Act → Bench → Bench × Option Crash}
    (hact : ∀ m acts b b', OnRunners R b b' → Alike (OnRunners R) (act m acts b) (act m acts b'))
    (n : Notice) : ∀ (left first : Nat) {b b' : Bench}, OnRunners R b b' →
      Alike (OnRunners R) (Bench.tellFrom act n left first b) (Bench.tellFrom act n left first b')
  | 0, _, _, _, h => ⟨h, rfl⟩
  | left + 1, first, b, b', h => by
    obtain ⟨b₁, b₁', acts, he, he', h₁⟩ := (h.inform hR first n).exists_eq
    obtain ⟨b₂, b₂', crash, hd, hd', h₂⟩ := (hact first acts b₁ b₁' h₁).exists_eq
    rw [Bench.tellFrom, Bench.tellFrom, he, he']
    simp only [hd, hd']
    cases crash with
    | none => exact tellFrom hact n left (first + 1) h₂
    | some c => exact ⟨h₂, rfl⟩

/-- **Telling leads from related benches to related benches**, and breaks off alike.  By induction on
how deep acts may nest. -/
theorem tellWithin : ∀ (nesting : Nat) (n : Notice) (b b' : Bench), OnRunners R b b' →
    Alike (OnRunners R) (Bench.tellWithin nesting n b) (Bench.tellWithin nesting n b')
  | nesting, n, b, b', h => by
    have hobserve : OnRunners R (b.observe n) (b'.observe n) := by
      obtain ⟨r, rfl, h⟩ := h
      exact ⟨_, rfl, hR.observe h (.ofMillis b.now) n⟩
    have hmembers : b'.members = b.members := by
      obtain ⟨r, rfl, -⟩ := h
      rfl
    cases nesting with
    | zero =>
      rw [Bench.tellWithin, Bench.tellWithin, hmembers]
      exact tellFrom hR (fun _ _ _ _ h => ⟨h, rfl⟩) n _ 0 hobserve
    | succ nesting =>
      rw [Bench.tellWithin, Bench.tellWithin, hmembers]
      exact tellFrom hR (fun m acts _ _ => perform hR (tellWithin nesting) m acts) n _ 0 hobserve

theorem tell (h : OnRunners R b b') (n : Notice) :
    Alike (OnRunners R) (b.tell n) (b'.tell n) := by
  have hn : b'.nesting = b.nesting := by
    obtain ⟨r, rfl, -⟩ := h
    rfl
  rw [Bench.tell, Bench.tell, hn]
  exact tellWithin hR b.nesting n b b' h

/-! ## 3. A run that is followed -/

theorem isStopRequested_eq (h : OnRunners R b b') (hrun : Follows run) :
    b'.isStopRequested run = b.isStopRequested run := by
  obtain ⟨r, rfl, h⟩ := h
  exact hR.stops h hrun

/-- A rest ends on both benches or on neither. -/
theorem restEnd?_cases (h : OnRunners R b b') (hrun : Follows run) (horizon due : Nat) :
    b.restEnd? run horizon due = none ∧ b'.restEnd? run horizon due = none ∨
      ∃ w b₁ b₁', b.restEnd? run horizon due = some (w, b₁) ∧
        b'.restEnd? run horizon due = some (w, b₁') ∧ OnRunners R b₁ b₁' := by
  unfold restEnd?
  rw [h.isStopRequested_eq hR hrun, h.now_eq]
  split
  · exact .inr ⟨_, _, _, rfl, rfl, h⟩
  · split
    · exact .inr ⟨_, _, _, rfl, rfl, h.clock _⟩
    · exact .inl ⟨rfl, rfl⟩

omit hR in
/-- So does a call. -/
theorem callEnd?_cases (h : OnRunners R b b') (horizon : Nat) (due : Option Nat) :
    b.callEnd? horizon due = none ∧ b'.callEnd? horizon due = none ∨
      ∃ b₁ b₁', b.callEnd? horizon due = some b₁ ∧ b'.callEnd? horizon due = some b₁' ∧
        OnRunners R b₁ b₁' := by
  cases due with
  | none => exact .inl ⟨rfl, rfl⟩
  | some due =>
    unfold callEnd?
    simp only
    rw [h.now_eq]
    split
    · exact .inr ⟨_, _, rfl, rfl, h.clock _⟩
    · exact .inl ⟨rfl, rfl⟩

theorem pauseEnd?_eq (h : OnRunners R b b') (hrun : Follows run) :
    b'.pauseEnd? run = b.pauseEnd? run := by
  obtain ⟨r, rfl, h⟩ := h
  have hstop : ((b.withRunner r).runner.signals run).stop = (b.runner.signals run).stop :=
    hR.stops h hrun
  have hgate : ((b.withRunner r).runner.signals run).gate = .released ↔
      (b.runner.signals run).gate = .released := hR.released h hrun
  simp only [pauseEnd?, hstop, hgate]

theorem lose (hrun : Follows run) (c : Crash) {b b' : Bench} (h : OnRunners R b b') :
    OnRunners R (b.lose run c) (b'.lose run c) :=
  h.withRunner fun h => hR.setOutcome h hrun _

/-- **A run goes on alike.**  By induction on its course. -/
theorem follow {broken : Crash → Bench → Bench} (hrun : Follows run)
    (hbroken : ∀ c b b', OnRunners R b b' → OnRunners R (broken c b) (broken c b')) (c : Course) :
    ∀ {b b' : Bench}, OnRunners R b b' →
      OnRunners R (Bench.follow run horizon broken c b) (Bench.follow run horizon broken c b') := by
  induction c with
  | ended r => exact fun h => h.withRunner fun h => hR.release (hR.setOutcome h hrun _) run
  | tell n next ih =>
    intro b b' h
    obtain ⟨b₁, b₁', crash, he, he', h₁⟩ := (h.tell hR n).exists_eq
    rw [Bench.follow, Bench.follow, he, he']
    cases crash with
    | none => exact ih h₁
    | some c => exact hbroken c _ _ h₁
  | askAny next ih =>
    intro b b' h
    rw [Bench.follow, Bench.follow, h.registry_eq]
    exact ih _ h
  | askDevice name next ih =>
    intro b b' h
    rw [Bench.follow, Bench.follow, h.registry_eq]
    exact ih _ h
  | askStop next ih =>
    intro b b' h
    rw [Bench.follow, Bench.follow, h.isStopRequested_eq hR hrun]
    exact ih _ h
  | rest nanos next ih =>
    intro b b' h
    simp only [Bench.follow, h.now_eq]
    rcases h.restEnd?_cases hR hrun horizon (b.now + wholeMillis nanos) with
      ⟨hr, hr'⟩ | ⟨w, b₁, b₁', hr, hr', h₁⟩
    · rw [hr, hr']
      exact h.withRunner fun h => hR.setStage h hrun _
    · rw [hr, hr']
      exact ih w h₁
  | call request limit next ih =>
    intro b b' h
    have hhandling : b'.handling request = b.handling request := by
      obtain ⟨r, rfl, -⟩ := h
      rfl
    simp only [Bench.follow, h.now_eq, hhandling]
    rcases (h.note (.sent request)).callEnd?_cases horizon
        (((b.handling request).limited limit).1.map (b.now + ·)) with
      ⟨hr, hr'⟩ | ⟨b₁, b₁', hr, hr', h₁⟩
    · rw [hr, hr']
      exact (h.note _).withRunner fun h => hR.setStage h hrun _
    · rw [hr, hr']
      exact ih _ h₁
  | arm next ih => exact fun h => ih (h.withRunner fun h => hR.arm h hrun)
  | park next ih =>
    intro b b' h
    rw [Bench.follow, Bench.follow, h.pauseEnd?_eq hR hrun]
    split
    · exact ih _ h
    · exact h.withRunner fun h => hR.setStage h hrun _
  | disarm next ih => exact fun h => ih (h.withRunner fun h => hR.disarm h hrun)

/-- So does the report that a run broke off. -/
theorem report (hrun : Follows run) (c : Course) {b b' : Bench} (h : OnRunners R b b') :
    OnRunners R (Bench.follow run horizon (fun c b => b.lose run c) c b)
      (Bench.follow run horizon (fun c b => b.lose run c) c b') :=
  follow hR hrun (fun c _ _ h => lose hR hrun c h) c h

theorem abort (hrun : Follows run) (c : Crash) {b b' : Bench} (h : OnRunners R b b') :
    OnRunners R (Bench.abort run horizon c b) (Bench.abort run horizon c b') := by
  rw [Bench.abort, Bench.abort]
  exact report hR hrun _ (h.withRunner fun h => hR.abandon h hrun)

/-- A run goes on alike, though it may break off. -/
theorem course (hrun : Follows run) (c : Course) {b b' : Bench} (h : OnRunners R b b') :
    OnRunners R (Bench.follow run horizon (Bench.abort run horizon) c b)
      (Bench.follow run horizon (Bench.abort run horizon) c b') :=
  follow hR hrun (fun c _ _ h => abort hR hrun c h) c h

/-- It goes on alike from its stage. -/
theorem resume (hrun : Follows run) (h : OnRunners R b b') (horizon : Nat) (s : Stage) :
    OnRunners R (b.resume run horizon s) (b'.resume run horizon s) := by
  cases s with
  | ready c => exact course hR hrun c h
  | resting due next =>
    rw [Bench.resume, Bench.resume]
    rcases h.restEnd?_cases hR hrun horizon due with ⟨hr, hr'⟩ | ⟨w, b₁, b₁', hr, hr', h₁⟩
    · rw [hr, hr']
      exact h
    · rw [hr, hr']
      exact course hR hrun _ h₁
  | calling due result next =>
    rw [Bench.resume, Bench.resume]
    rcases h.callEnd?_cases horizon due with ⟨hr, hr'⟩ | ⟨b₁, b₁', hr, hr', h₁⟩
    · rw [hr, hr']
      exact h
    · rw [hr, hr']
      exact course hR hrun _ h₁
  | parked next =>
    rw [Bench.resume, Bench.resume, h.pauseEnd?_eq hR hrun]
    split
    · exact course hR hrun _ h
    · exact h

theorem proceed (h : OnRunners R b b') (horizon run : Nat) :
    OnRunners R (b.proceed horizon run) (b'.proceed horizon run) := by
  have hprog : b'.runner.progress? run = b.runner.progress? run := by
    obtain ⟨r, rfl, h⟩ := h
    exact hR.progress h run
  rw [Bench.proceed, Bench.proceed, hprog]
  split
  · rename_i s hs
    have hrun : Follows run := by
      obtain ⟨r, rfl, h⟩ := h
      exact hR.going h hs
    exact h.resume hR hrun horizon s
  · exact h

/-! ## 4. Histories -/

theorem answer_eq (h : OnRunners R b b') (c : Control) : b'.answer c = b.answer c :=
  (h.control hR (fun n _ _ h => h.tell hR n) c).2

theorem turn (h : OnRunners R b b') : ∀ t : Turn, OnRunners R (b.turn t) (b'.turn t)
  | .control c => (h.control hR (fun n _ _ h => h.tell hR n) c).1
  | .devices r => h.devices r
  | .clock moment => h.clock moment
  | .proceed horizon run => h.proceed hR horizon run

/-- **Related benches stay related**, whatever happens to both.  By induction on the turns. -/
theorem after : ∀ {turns : List Turn} {b b' : Bench}, OnRunners R b b' →
    OnRunners R (b.after turns) (b'.after turns)
  | [], _, _, h => h
  | t :: _, _, _, h => (h.turn hR t).after

end OnRunners

/-! ## 5. What is never told apart -/

variable {b b' : Bench}

/-- **The benches look alike**: nothing differs that the clock, the runner or the devices show, that
was logged, written into the journal or heard; runs have come as far, the same stops are asked for,
the same pauses wait for a continue, and whatever is asked is answered alike. -/
structure LooksLike (b b' : Bench) : Prop where
  now : b'.now = b.now
  active : b'.runner.active = b.runner.active
  snapshot : b'.snapshot = b.snapshot
  log : b'.runner.log = b.runner.log
  journal : b'.journal = b.journal
  members : b'.members = b.members
  registry : b'.registry = b.registry
  progress : ∀ run, b'.runner.progress? run = b.runner.progress? run
  stops : ∀ run, b'.isStopRequested run = b.isStopRequested run
  waits : ∀ run, b'.gate run = .waiting ↔ b.gate run = .waiting
  answers : ∀ c, b'.answer c = b.answer c

/-- **Benches that are related are never told apart**: they look alike, and whatever goes on on both
leads to benches that are related, with the same crashes.  What goes on may be a turn, or what is left
of one that has begun: of the acts of a listener, of the members that are still to be told, of the
notices of a reset, and of the course of a run, which may be the report that it broke off. -/
structure IsUnseen (R : Bench → Bench → Prop) : Prop where
  looks : ∀ {b b'}, R b b' → b.LooksLike b'
  acts : ∀ {b b'}, R b b' → ∀ nesting member acts,
    Alike R (perform (tellWithin nesting) member acts b)
      (perform (tellWithin nesting) member acts b')
  members : ∀ {b b'}, R b b' → ∀ nesting n left member,
    Alike R (tellFrom (perform (tellWithin nesting)) n left member b)
      (tellFrom (perform (tellWithin nesting)) n left member b')
  notices : ∀ {b b'}, R b b' → ∀ nesting ns,
    Alike R (tellAll (tellWithin nesting) ns b) (tellAll (tellWithin nesting) ns b')
  course : ∀ {b b'}, R b b' → ∀ run horizon c,
    R (follow run horizon (abort run horizon) c b) (follow run horizon (abort run horizon) c b')
  report : ∀ {b b'}, R b b' → ∀ run horizon c,
    R (follow run horizon (fun c b => b.lose run c) c b)
      (follow run horizon (fun c b => b.lose run c) c b')
  turn : ∀ {b b'}, R b b' → ∀ t, R (b.turn t) (b'.turn t)

/-- The benches are never told apart, whatever happens to both. -/
def Indistinguishable (b b' : Bench) : Prop :=
  ∃ R, IsUnseen R ∧ R b b'

theorem Indistinguishable.looksLike (h : b.Indistinguishable b') : b.LooksLike b' := by
  obtain ⟨R, hR, h⟩ := h
  exact hR.looks h

theorem Indistinguishable.turn (h : b.Indistinguishable b') (t : Turn) :
    (b.turn t).Indistinguishable (b'.turn t) := by
  obtain ⟨R, hR, h⟩ := h
  exact ⟨R, hR, hR.turn h t⟩

theorem Indistinguishable.after : ∀ {turns : List Turn} {b b' : Bench},
    b.Indistinguishable b' → (b.after turns).Indistinguishable (b'.after turns)
  | [], _, _, h => h
  | t :: _, _, _, h => (h.turn t).after

section

variable {R : Runner → Runner → Prop} (hR : Runner.Congruence R fun _ => True)
include hR

theorem OnRunners.looksLike (h : OnRunners R b b') : b.LooksLike b' := by
  have hanswers := h.answer_eq hR
  have hstops : ∀ run, b'.isStopRequested run = b.isStopRequested run :=
    fun _ => h.isStopRequested_eq hR trivial
  have hwaits : ∀ run, b'.gate run = .waiting ↔ b.gate run = .waiting := by
    intro run
    have hasks : ∀ b : Bench, b.Asks run (.continueThe run) :=
      fun _ => ⟨decide_eq_true rfl, Control.noConfusion⟩
    have h := hanswers (.continueThe run)
    rw [(hasks b).answer_eq, (hasks b').answer_eq] at h
    exact decide_eq_decide.mp (Answer.flag.inj (Except.ok.inj h))
  obtain ⟨r, rfl, h⟩ := h
  exact {
    now := rfl
    active := hR.active h
    snapshot := congrArg (·.snapshot) (hR.projector h)
    log := hR.log h
    journal := rfl
    members := rfl
    registry := rfl
    progress := hR.progress h
    stops := hstops
    waits := hwaits
    answers := hanswers }

/-- A difference that all runs go on alike with goes unseen. -/
theorem isUnseen_onRunners : IsUnseen (OnRunners R) where
  looks h := h.looksLike hR
  acts h nesting member acts := h.perform hR (OnRunners.tellWithin hR nesting) member acts
  members h nesting n left member :=
    h.tellFrom hR (fun m acts _ _ h => h.perform hR (OnRunners.tellWithin hR nesting) m acts)
      n left member
  notices h nesting ns := h.tellAll (OnRunners.tellWithin hR nesting) ns
  course h _ _ c := h.course hR trivial c
  report h _ _ c := h.report hR trivial c
  turn h t := h.turn hR t

/-- **Benches with related runners are never told apart**, if all runs go on alike on them. -/
theorem OnRunners.indistinguishable (h : OnRunners R b b') : b.Indistinguishable b' :=
  ⟨_, isUnseen_onRunners hR, h⟩

end

end Bench

end DeviceScript
