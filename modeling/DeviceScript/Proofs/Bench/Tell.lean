import DeviceScript.Bench.Follow
import DeviceScript.Proofs.Runner
/-!
# Telling an audience while a run is active

Listeners act while they are told something, and what they do comes in the middle of what the run
does.  While a run is active there is little that they can do to it: a start and a reset are
refused, so that nothing is told in the middle of a notice, and what is left are requests made of
runs and changes to the devices (`Bench.Calm`).  So a notice that is told in the course of a run
comes to the audience as one piece: every member hears it once, in turn, and the runner shows what
the notice says (`Bench.tells`).  A listener that crashes keeps it from those behind it.

`Bench.KeptByActs` is for the other case too, a runner without an active run: there a reset tells
notices, and a listener may start a run in the middle of them.
-/

namespace DeviceScript

/-! ## 1. What the journal says about members -/

/-- What an entry of the journal says that this member heard. -/
def heardIn (member : Nat) : Nat × Happening → Option Notice
  | (_, .told m n _) => if m = member then some n else none
  | _ => none

/-- What this member heard according to the journal `js`, in order. -/
def heardBy (member : Nat) (js : List (Nat × Happening)) : List Notice :=
  js.filterMap (heardIn member)

@[simp] theorem heardBy_append (member : Nat) (js₁ js₂ : List (Nat × Happening)) :
    heardBy member (js₁ ++ js₂) = heardBy member js₁ ++ heardBy member js₂ :=
  List.filterMap_append

/-- A member that never crashes.  What it does depends on what it hears and on nothing else. -/
def Member.IsSteady : Member → Prop
  | listener react _ => ∀ earlier n c, .crash c ∉ react earlier n
  | publisher _ => True

theorem Member.isSteady_hear {m : Member} (h : m.IsSteady) (moment : Timestamp) (run : String)
    (n : Notice) : (m.hear moment run n).1.IsSteady := by
  cases m with
  | listener => exact h
  | publisher => trivial

theorem Member.crash_notMem_hear {m : Member} (h : m.IsSteady) (moment : Timestamp) (run : String)
    (n : Notice) (c : Crash) : .crash c ∉ (m.hear moment run n).2 := by
  cases m with
  | listener react heard => exact h heard n c
  | publisher => exact List.not_mem_nil

namespace Bench

/-- What the runner shows of its runs. -/
def snapshot (b : Bench) : Snapshot := b.runner.projector.snapshot

/-- Whether a run is active. -/
def IsBusy (b : Bench) : Prop := b.runner.active.isSome = true

theorem isBusy_of_active {b : Bench} {run : Nat} (h : b.runner.active = some run) : b.IsBusy := by
  rw [IsBusy, h]
  rfl

/-- A bench whose members never crash. -/
def IsSteady (b : Bench) : Prop := ∀ m ∈ b.members, m.IsSteady

/-! ## 2. What happens around a run -/

/-- **What can happen around an active run.**  The bench `b` may become `b'`, and `js` is then
written into the journal.  No time passes, runs are where they were, nothing new is made known of
them, and a stop stays asked for. -/
structure Calm (b : Bench) (js : List (Nat × Happening)) (b' : Bench) : Prop where
  now : b'.now = b.now
  active : b'.runner.active = b.runner.active
  progress : ∀ run, b'.runner.progress? run = b.runner.progress? run
  projector : b'.runner.projector = b.runner.projector
  stop : ∀ run, b.isStopRequested run = true → b'.isStopRequested run = true
  size : b'.members.length = b.members.length
  steady : b.IsSteady → b'.IsSteady
  journal : b'.journal = b.journal ++ js
  times : ∀ e ∈ js, e.1 = b.now
  unsent : ∀ e ∈ js, ∀ r, e.2 ≠ .sent r

section Calm

variable {b b' b'' : Bench} {js js' : List (Nat × Happening)}

theorem Calm.refl (b : Bench) : b.Calm [] b where
  now := rfl
  active := rfl
  progress _ := rfl
  projector := rfl
  stop _ := id
  size := rfl
  steady := id
  journal := (List.append_nil _).symm
  times _ he := absurd he List.not_mem_nil
  unsent _ he := absurd he List.not_mem_nil

theorem Calm.trans (h : b.Calm js b') (h' : b'.Calm js' b'') : b.Calm (js ++ js') b'' where
  now := h'.now.trans h.now
  active := h'.active.trans h.active
  progress run := (h'.progress run).trans (h.progress run)
  projector := h'.projector.trans h.projector
  stop run := h'.stop run ∘ h.stop run
  size := h'.size.trans h.size
  steady := h'.steady ∘ h.steady
  journal := by rw [h'.journal, h.journal, List.append_assoc]
  times e he := by
    rcases List.mem_append.mp he with he | he
    · exact h.times e he
    · exact (h'.times e he).trans h.now
  unsent e he := by
    rcases List.mem_append.mp he with he | he
    · exact h.unsent e he
    · exact h'.unsent e he

/-- So the runner shows what it showed. -/
theorem Calm.snapshot (h : b.Calm js b') : b'.snapshot = b.snapshot :=
  congrArg Projector.snapshot h.projector

theorem Calm.isBusy (h : b.Calm js b') (hb : b.IsBusy) : b'.IsBusy := by
  rw [IsBusy, h.active]
  exact hb

/-- Requests of a run may be written down that keep its stop. -/
theorem calm_setSignals {run : Nat} {s : Signals}
    (hs : (b.runner.signals run).stop = true → s.stop = true) :
    b.Calm [] (b.withRunner (b.runner.setSignals run s)) :=
  { Calm.refl b with
    progress := fun _ => Runner.progress?_setSignals s
    stop := fun _ => Runner.stop_setSignals hs }

/-- A line may be written into the journal, other than on a command that is handed over. -/
theorem calm_note {h : Happening} (hh : ∀ r, h ≠ .sent r) : b.Calm [(b.now, h)] (b.note h) :=
  { Calm.refl b with
    journal := rfl
    times := fun _ he => List.mem_singleton.mp he ▸ rfl
    unsent := fun _ he => List.mem_singleton.mp he ▸ hh }

end Calm

/-! ## 3. What listeners do -/

/-- **What a control does.**  Either it is refused or makes a request, or it starts a run, or it
resets the runner. -/
theorem control_cases (b : Bench) (tell : Notice → Bench → Bench × Option Crash) (c : Control) :
    (∃ b' a, b.control tell c = (b', .ok a) ∧ b.Calm [] b') ∨
      (∃ p r, b.runner.start? b.registry.hasAny (Plan.course p) = .ok r ∧
        b.control tell c = (b.withRunner r, .ok .started)) ∨
      (c = .reset ∧ ∃ ns, b.runner.resetNotices? = .ok ns ∧
        (b.control tell c).1 = (tellAll tell ns b).1) := by
  cases c with
  | start script mode =>
    cases hr : b.runner.start? b.registry.hasAny (Plan.course ⟨script, mode, b.timing⟩) with
    | ok r => exact .inr (.inl ⟨_, r, hr, by simp only [control, hr]⟩)
    | error e => exact .inl ⟨b, .notStarted e, by simp only [control, hr], .refl b⟩
  | stop =>
    left
    cases ha : b.runner.active with
    | none =>
      exact ⟨b, .flag false, by simp only [control, Runner.stopActive, ha, withRunner], .refl b⟩
    | some run =>
      exact ⟨b.withRunner (b.runner.stopRun run), .flag true,
        by simp only [control, Runner.stopActive, ha], calm_setSignals fun _ => rfl⟩
  | continueRun =>
    left
    cases ha : b.runner.active with
    | none =>
      exact ⟨b, .flag false, by simp only [control, Runner.continueActive, ha, withRunner], .refl b⟩
    | some run =>
      exact ⟨b.withRunner (b.runner.continueRun run).1, .flag (b.runner.continueRun run).2,
        by simp only [control, Runner.continueActive, ha],
        calm_setSignals (Signals.stop_requestContinue _)⟩
  | stopRun other => exact .inl ⟨_, _, rfl, calm_setSignals fun _ => rfl⟩
  | continueThe other => exact .inl ⟨_, _, rfl, calm_setSignals (Signals.stop_requestContinue _)⟩
  | reset =>
    cases hr : b.runner.resetNotices? with
    | error e => exact .inl ⟨b, .notReset e, by simp only [control, hr], .refl b⟩
    | ok ns =>
      refine .inr (.inr ⟨rfl, ns, rfl, ?_⟩)
      simp only [control, hr]
      split <;> simp only [*]
  | setConnected name connected => exact .inl ⟨_, _, rfl, { Calm.refl b with }⟩

/-- **No control disturbs an active run.**  A start and a reset are refused, and so it does not
matter how the notices of a reset would be told. -/
theorem calm_control {b : Bench} (hb : b.IsBusy)
    (tell : Notice → Bench → Bench × Option Crash) (c : Control) :
    ∃ b' a, b.control tell c = (b', .ok a) ∧ b.Calm [] b' := by
  have hne : b.runner.active ≠ none := Option.isSome_iff_ne_none.mp hb
  rcases control_cases b tell c with h | ⟨p, r, hr, -⟩ | ⟨-, ns, hr, -⟩
  · exact h
  · exact absurd (Runner.start?_eq_ok hr).1 hne
  · exact absurd (Runner.resetNotices?_eq_ok hr).1 hne

/-- What a listener does while a run is active: `p` is the bench afterwards with the crash that
broke it off, and `js` is what was written into the journal. -/
structure Performs (member : Nat) (acts : List Act) (b : Bench) (js : List (Nat × Happening))
    (p : Bench × Option Crash) : Prop where
  calm : b.Calm js p.1
  silent : ∀ m, heardBy m js = []
  crash : ∀ c, p.2 = some c → ∃ moment, (moment, .crashed member c) ∈ js
  steady : (∀ c, .crash c ∉ acts) → p.2 = none

theorem Performs.nil (member : Nat) (acts : List Act) (b : Bench) :
    Performs member acts b [] (b, none) where
  calm := .refl b
  silent _ := rfl
  crash _ hc := by cases hc
  steady _ := rfl

/-- A listener's acts are done one after the other; the first crash is the end of them. -/
theorem performs_perform (tell : Notice → Bench → Bench × Option Crash) (member : Nat) :
    ∀ (acts : List Act) {b : Bench}, b.IsBusy →
      ∃ js, Performs member acts b js (perform tell member acts b)
  | [], b, _ => ⟨[], .nil member [] b⟩
  | .crash c :: more, b, _ => by
    refine ⟨[(b.now, .crashed member c)], calm_note nofun, fun _ => rfl, ?_, ?_⟩
    · intro c' hc
      cases hc
      exact ⟨b.now, List.mem_singleton_self _⟩
    · intro h
      exact absurd List.mem_cons_self (h c)
  | .control c :: more, b, hb => by
    obtain ⟨b₁, a, hc, h₁⟩ := calm_control hb tell c
    have h₂ : b.Calm [(b₁.now, .acted member c a)] (b₁.note (.acted member c a)) :=
      h₁.trans (calm_note nofun)
    obtain ⟨js, h⟩ := performs_perform tell member more (h₂.isBusy hb)
    have hp : perform tell member (.control c :: more) b =
        perform tell member more (b₁.note (.acted member c a)) := by
      rw [perform, hc]
    rw [hp]
    refine ⟨_ :: js, h₂.trans h.calm, h.silent, ?_, ?_⟩
    · intro c' hc'
      obtain ⟨moment, hm⟩ := h.crash c' hc'
      exact ⟨moment, List.mem_cons_of_mem _ hm⟩
    · intro hs
      exact h.steady fun c' hc' => hs c' (List.mem_cons_of_mem _ hc')

/-! ## 4. One notice -/

/-- What becomes of a notice that the members from `first` on are told while a run is active: each
of them hears it once, in turn, up to the one that crashes if one does. -/
structure Tells (first : Nat) (n : Notice) (b : Bench) (js : List (Nat × Happening))
    (p : Bench × Option Crash) : Prop where
  calm : b.Calm js p.1
  heard : ∀ m, (heardBy m js).Sublist (if first ≤ m then [n] else [])
  all : p.2 = none → ∀ m, first ≤ m → m < b.members.length → heardBy m js = [n]
  crash : ∀ c, p.2 = some c → ∃ m, first ≤ m ∧ m < b.members.length ∧
    (∃ moment, (moment, .crashed m c) ∈ js) ∧
    ∀ k, heardBy k js = if first ≤ k ∧ k ≤ m then [n] else []
  steady : b.IsSteady → p.2 = none

/-- A member is told. -/
theorem calm_inform {b : Bench} {member : Nat} {n : Notice} (hm : member < b.members.length) :
    b.Calm [(b.now, .told member n b.runner.glimpse)] (b.inform member n).1 := by
  unfold inform
  rw [List.getElem?_eq_getElem hm]
  exact
    { Calm.refl b with
      size := List.length_set
      steady := fun hs m hmem => by
        rcases List.mem_or_eq_of_mem_set hmem with h | rfl
        · exact hs m h
        · exact Member.isSteady_hear (hs _ (List.getElem_mem hm)) _ _ _
      journal := rfl
      times := fun _ he => List.mem_singleton.mp he ▸ rfl
      unsent := fun _ he => List.mem_singleton.mp he ▸ nofun }

/-- A member that never crashes does not when it is told. -/
theorem crash_notMem_inform {b : Bench} (hs : b.IsSteady) (member : Nat) (n : Notice) (c : Crash) :
    .crash c ∉ (b.inform member n).2 := by
  unfold inform
  split
  · exact List.not_mem_nil
  · rename_i m hm
    exact Member.crash_notMem_hear (hs m (List.mem_of_getElem? hm)) _ _ _ c

section Member

variable {b b₁ b' : Bench} {n : Notice} {first : Nat} {acts : List Act} {c : Crash}
  {js js' : List (Nat × Happening)} {p : Bench × Option Crash}

/-- Nobody is left to be told. -/
theorem tells_nobody (hl : first = b.members.length) : Tells first n b [] (b, none) where
  calm := .refl b
  heard _ := List.nil_sublist _
  all _ m h1 h2 := by omega
  crash _ hc := by cases hc
  steady _ := rfl

/-- Of a member that is told and acts then, only that member hears anything. -/
theorem Performs.heardBy_told (h : Performs first acts b js p) (moment : Nat) (shown : Glimpse)
    (m : Nat) :
    heardBy m ([(moment, .told first n shown)] ++ js) = if first = m then [n] else [] := by
  rw [heardBy_append, h.silent, List.append_nil, heardBy, List.filterMap_cons]
  by_cases hm : first = m <;> simp [heardIn, hm]

/-- A member that crashes keeps the notice from those behind it. -/
theorem Tells.of_crash (hm : first < b.members.length)
    (h : Performs first (b.inform first n).2 (b.inform first n).1 js (b', some c)) :
    Tells first n b ([(b.now, .told first n b.runner.glimpse)] ++ js) (b', some c) where
  calm := (calm_inform hm).trans h.calm
  heard m := by
    rw [h.heardBy_told]
    by_cases hfm : first = m
    · have hle : first ≤ m := Nat.le_of_eq hfm
      simp only [if_pos hfm, if_pos hle, List.Sublist.refl]
    · rw [if_neg hfm]
      exact List.nil_sublist _
  all := nofun
  crash c' hc := by
    obtain ⟨moment, hcrash⟩ := h.crash c' hc
    refine ⟨first, Nat.le_refl _, hm, ⟨moment, List.mem_append_right _ hcrash⟩, fun k => ?_⟩
    rw [h.heardBy_told]
    by_cases hk : first = k
    · rw [if_pos hk, if_pos (by omega)]
    · rw [if_neg hk, if_neg (by omega)]
  steady hs := h.steady (crash_notMem_inform hs first n)

/-- **A member is told, and then those behind it.** -/
theorem Tells.cons (hm : first < b.members.length)
    (h : Performs first (b.inform first n).2 (b.inform first n).1 js (b₁, none))
    (h' : Tells (first + 1) n b₁ js' p) :
    Tells first n b ([(b.now, .told first n b.runner.glimpse)] ++ js ++ js') p := by
  have h₁ := (calm_inform (n := n) hm).trans h.calm
  refine ⟨h₁.trans h'.calm, ?_, ?_, ?_, fun hs => h'.steady (h₁.steady hs)⟩
  · intro m
    have hm' := h'.heard m
    rw [heardBy_append, h.heardBy_told]
    rcases Nat.lt_trichotomy first m with hlt | rfl | hlt
    · rw [if_neg (by omega), if_pos (by omega)]
      rwa [if_pos (by omega)] at hm'
    · rw [if_neg (by omega)] at hm'
      simp [List.sublist_nil.mp hm']
    · rw [if_neg (by omega), if_neg (by omega)]
      rwa [if_neg (by omega)] at hm'
  · intro hn m hle hlt
    rw [heardBy_append, h.heardBy_told]
    by_cases hfm : first = m
    · subst hfm
      have hm' := h'.heard first
      rw [if_neg (by omega)] at hm'
      rw [if_pos rfl, List.sublist_nil.mp hm', List.append_nil]
    · rw [if_neg hfm]
      exact h'.all hn m (by omega) (by rw [h₁.size]; exact hlt)
  · intro c hc
    obtain ⟨m, hfm, hlt, ⟨moment, hcrash⟩, hlast⟩ := h'.crash c hc
    refine ⟨m, by omega, h₁.size ▸ hlt, ⟨moment, List.mem_append_right _ hcrash⟩, fun k => ?_⟩
    rw [heardBy_append, h.heardBy_told, hlast]
    by_cases hfk : first = k
    · rw [if_pos hfk, if_neg (by omega), if_pos (by omega)]
      rfl
    · rw [if_neg hfk, List.nil_append]
      by_cases hk : first ≤ k ∧ k ≤ m
      · rw [if_pos (by omega), if_pos hk]
      · rw [if_neg (by omega), if_neg hk]

end Member

/-- The members from `first` on are told one after the other.  By induction on their number. -/
theorem tells_tellFrom {act : Nat → List Act → Bench → Bench × Option Crash} {n : Notice}
    (hact : ∀ m acts (b : Bench), b.IsBusy → ∃ js, Performs m acts b js (act m acts b)) :
    ∀ {left first : Nat} {b : Bench}, b.IsBusy → first + left = b.members.length →
      ∃ js, Tells first n b js (tellFrom act n left first b)
  | 0, _, _, _, hl => ⟨[], tells_nobody hl⟩
  | left + 1, first, b, hb, hl => by
    have hm : first < b.members.length := by omega
    have h₁ := calm_inform (n := n) hm
    obtain ⟨js, h⟩ := hact first (b.inform first n).2 (b.inform first n).1 (h₁.isBusy hb)
    cases hp : act first (b.inform first n).2 (b.inform first n).1 with
    | mk b₁ crash =>
      rw [hp] at h
      cases crash with
      | some c =>
        have ht : tellFrom act n (left + 1) first b = (b₁, some c) := by
          simp only [tellFrom, hp]
        rw [ht]
        exact ⟨_, .of_crash hm h⟩
      | none =>
        have ht : tellFrom act n (left + 1) first b = tellFrom act n left (first + 1) b₁ := by
          simp only [tellFrom, hp]
        have hsize : b₁.members.length = b.members.length := h.calm.size.trans h₁.size
        obtain ⟨js', h'⟩ := tells_tellFrom hact (h.calm.isBusy (h₁.isBusy hb))
          (show first + 1 + left = b₁.members.length by omega)
        rw [ht]
        exact ⟨_, .cons hm h h'⟩

/-- The runner hears a notice before the members do. -/
theorem observe_eq (b : Bench) (n : Notice) :
    (b.observe n).runner.active = b.runner.active ∧ (b.observe n).members = b.members := by
  cases n <;> exact ⟨rfl, rfl⟩

/-- **A notice of an active run is told as one piece.**  The runner shows what it says, and every
member hears it once, in turn; what the listeners do meanwhile leaves the run as it is. -/
theorem tells {b : Bench} (hb : b.IsBusy) (n : Notice) :
    ∃ js, Tells 0 n (b.observe n) js (b.tell n) := by
  obtain ⟨ha, hm⟩ := observe_eq b n
  have hb' : (b.observe n).IsBusy := by
    rw [IsBusy, ha]
    exact hb
  have hl : 0 + b.members.length = (b.observe n).members.length := by
    rw [hm, Nat.zero_add]
  unfold tell
  cases b.nesting with
  | zero => exact tells_tellFrom (fun m acts b' _ => ⟨[], .nil m acts b'⟩) hb' hl
  | succ k =>
    exact tells_tellFrom (fun m acts _ hb'' => performs_perform (tellWithin k) m acts hb'') hb' hl

/-! ## 5. Properties that telling keeps -/

/-- The property `P` of benches is kept by everything that can happen while notices of the sort `N`
are told: by the runner and by the members hearing them, by the journal, and by controls, as long as
it is kept by the way in which these tell notices of their own. -/
structure Kept (N : Notice → Prop) (P : Bench → Prop) : Prop where
  observe : ∀ {n : Notice} {b : Bench}, N n → P b → P (b.observe n)
  inform : ∀ {m : Nat} {n : Notice} {b : Bench}, P b → P (b.inform m n).1
  note : ∀ {h : Happening} {b : Bench}, P b → P (b.note h)
  control : ∀ {tell : Notice → Bench → Bench × Option Crash},
    (∀ n b, N n → P b → P (tell n b).1) → ∀ c b, P b → P (b.control tell c).1

/-- The property `P` of benches is kept likewise, where a control and the line on it in the journal
are one thing.  So `P` may be about both. -/
structure KeptByActs (N : Notice → Prop) (P : Bench → Prop) : Prop where
  observe : ∀ {n : Notice} {b : Bench}, N n → P b → P (b.observe n)
  inform : ∀ {m : Nat} {n : Notice} {b : Bench}, P b → P (b.inform m n).1
  crashed : ∀ {m : Nat} {c : Crash} {b : Bench}, P b → P (b.note (.crashed m c))
  refused : ∀ {tell : Notice → Bench → Bench × Option Crash},
    (∀ n b, N n → P b → P (tell n b).1) → ∀ {c : Control} {crash : Crash} {b b' : Bench},
    b.control tell c = (b', .error crash) → P b → P b'
  acted : ∀ {tell : Notice → Bench → Bench × Option Crash},
    (∀ n b, N n → P b → P (tell n b).1) → ∀ {m : Nat} {c : Control} {a : Answer} {b b' : Bench},
    b.control tell c = (b', .ok a) → P b → P (b'.note (.acted m c a))

section Kept

variable {N : Notice → Prop} {P : Bench → Prop}

theorem keeps_tellAll {tell : Notice → Bench → Bench × Option Crash}
    (ht : ∀ n b, N n → P b → P (tell n b).1) :
    ∀ {ns : List Notice} {b : Bench}, (∀ n ∈ ns, N n) → P b → P (tellAll tell ns b).1
  | [], _, _, h => h
  | n :: ns, b, hn, h => by
    have h₁ := ht n b (hn n List.mem_cons_self) h
    rw [tellAll]
    split
    · rename_i hc
      rwa [hc] at h₁
    · rename_i hc
      rw [hc] at h₁
      exact keeps_tellAll ht (fun n' hn' => hn n' (List.mem_cons_of_mem _ hn')) h₁

/-- A reset keeps what the way of telling its notices keeps. -/
theorem keeps_reset {tell : Notice → Bench → Bench × Option Crash} {b : Bench}
    (ht : ∀ n b, N n → P b → P (tell n b).1)
    (hn : ∀ {ns}, b.runner.resetNotices? = .ok ns → ∀ n ∈ ns, N n) (h : P b) :
    P (b.control tell .reset).1 := by
  rw [control]
  split
  · exact h
  · rename_i ns hr
    have h₁ : P (tellAll tell ns b).1 := keeps_tellAll ht (hn hr) h
    split <;> simpa only [*] using h₁

/-- The acts of a listener keep what its crashes and its controls keep. -/
theorem keeps_perform {tell : Notice → Bench → Bench × Option Crash} {m : Nat}
    (hcrashed : ∀ c b, P b → P (b.note (.crashed m c)))
    (hrefused : ∀ {c : Control} {crash : Crash} {b b' : Bench},
      b.control tell c = (b', .error crash) → P b → P b')
    (hacted : ∀ {c : Control} {a : Answer} {b b' : Bench},
      b.control tell c = (b', .ok a) → P b → P (b'.note (.acted m c a))) :
    ∀ {acts : List Act} {b : Bench}, P b → P (perform tell m acts b).1
  | [], _, h => h
  | .crash c :: _, b, h => hcrashed c b h
  | .control c :: acts, b, h => by
    rw [perform]
    split
    · rename_i hc
      exact hrefused hc h
    · rename_i hc
      exact keeps_perform hcrashed hrefused hacted (hacted hc h)

/-- Telling one notice to the members keeps what one member that hears it keeps, and what its acts
keep. -/
theorem keeps_tellFrom {act : Nat → List Act → Bench → Bench × Option Crash} {n : Notice}
    (hinform : ∀ m b, P b → P (b.inform m n).1)
    (hact : ∀ m acts b, P b → P (act m acts b).1) :
    ∀ {left first : Nat} {b : Bench}, P b → P (tellFrom act n left first b).1
  | 0, _, _, h => h
  | left + 1, first, b, h => by
    have h₁ := hact first (b.inform first n).2 _ (hinform first b h)
    rw [tellFrom]
    simp only
    split
    · rename_i hc
      rwa [hc] at h₁
    · rename_i hc
      rw [hc] at h₁
      exact keeps_tellFrom hinform hact h₁

theorem KeptByActs.perform (hk : KeptByActs N P) {tell : Notice → Bench → Bench × Option Crash}
    (ht : ∀ n b, N n → P b → P (tell n b).1) (m : Nat) {acts : List Act} {b : Bench} (h : P b) :
    P (Bench.perform tell m acts b).1 :=
  keeps_perform (fun _ _ => hk.crashed) (fun hc => hk.refused ht hc) (fun hc => hk.acted ht hc) h

theorem KeptByActs.tellFrom (hk : KeptByActs N P)
    {act : Nat → List Act → Bench → Bench × Option Crash}
    (hact : ∀ m acts b, P b → P (act m acts b).1) (n : Notice) {left first : Nat} {b : Bench}
    (h : P b) : P (Bench.tellFrom act n left first b).1 :=
  keeps_tellFrom (fun _ _ => hk.inform) hact h

/-- **Telling keeps it**, from when the runner has heard the notice on.  By induction on how deep
acts may nest. -/
theorem KeptByActs.tellWithin_of_observe (hk : KeptByActs N P) :
    ∀ (nesting : Nat) (n : Notice) (b : Bench), P (b.observe n) → P (Bench.tellWithin nesting n b).1
  | 0, n, _, h => hk.tellFrom (fun _ _ _ h => h) n h
  | nesting + 1, n, _, h => by
    have ht : ∀ n b, N n → P b → P (Bench.tellWithin nesting n b).1 :=
      fun n b hn h => hk.tellWithin_of_observe nesting n b (hk.observe hn h)
    exact hk.tellFrom (fun m _ _ h => hk.perform ht m h) n h

theorem KeptByActs.tellWithin (hk : KeptByActs N P) (nesting : Nat) (n : Notice) (b : Bench)
    (hn : N n) (h : P b) : P (Bench.tellWithin nesting n b).1 :=
  hk.tellWithin_of_observe nesting n b (hk.observe hn h)

theorem Kept.keptByActs (hk : Kept N P) : KeptByActs N P where
  observe := hk.observe
  inform := hk.inform
  crashed := hk.note
  refused {_} ht {c _ b _} he h := by
    have h₁ := hk.control ht c b h
    rwa [he] at h₁
  acted {_} ht {_ c _ b _} he h := by
    have h₁ := hk.control ht c b h
    rw [he] at h₁
    exact hk.note h₁

theorem Kept.tell (hk : Kept N P) {b : Bench} {n : Notice} (hn : N n) (h : P b) :
    P (b.tell n).1 :=
  hk.keptByActs.tellWithin b.nesting n b hn h

/-- So does what an operator does. -/
theorem Kept.operate (hk : Kept N P) {b : Bench} (h : P b) (c : Control) :
    P (b.control (fun n b => b.tell n) c).1 :=
  hk.control (fun _ _ hn h => hk.tell hn h) c b h

end Kept

end Bench

end DeviceScript
