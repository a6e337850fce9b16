import DeviceScript.Proofs.Bench.Gates
/-!
# What the audience hears of a run

As long as no listener crashes, every member hears what the moves of a run tell, all of it and in
this order (`Bench.HearsAll`).  A listener that crashes keeps the notice at hand from the members
behind it.  The run is then reported to the whole audience, and a second crash cuts that report
short in the same way (`Bench.BreaksOff`).  There is nothing else that can come between a run and
its audience: `Bench.StandsAt.proceed` says so of one time that a run is followed, from the place on
its course where it stands (`Bench.Relates`).
-/

namespace DeviceScript.Bench

variable {b b' b₁ b₂ : Bench} {run horizon : Nat} {p : Plan} {s : Stage} {ms ms' : List Move}
  {m : Move} {js js' : List (Nat × Happening)} {c c₁ : Course} {n : Notice} {ns : List Notice}

/-! ## 1. The report of a run that was broken off -/

/-- From the bench `b` on, each member hears the first of these notices. -/
def Trails (ns : List Notice) (b b' : Bench) : Prop :=
  ∃ js, b'.journal = b.journal ++ js ∧ ∀ k, k < b.members.length → heardBy k js <+: ns

/-- One more notice in front, unless a crash makes it the last. -/
theorem IsSole.trails_report {next : Course} (h : b.IsSole run)
    (hnext : ∀ b', b'.IsSole run →
      Trails ns b' (follow run horizon (fun c b => b.lose run c) next b')) :
    Trails (n :: ns) b (follow run horizon (fun c b => b.lose run c) (.tell n next) b) := by
  obtain ⟨js, ht, -, hsole⟩ := h.tells n
  have hsize : (b.observe n).members.length = b.members.length := by
    rw [(observe_eq b n).2]
  rw [follow]
  split
  · rename_i b₁ c hc
    rw [hc] at ht
    refine ⟨js, ht.calm.journal, fun k _ => ?_⟩
    obtain ⟨m, -, -, -, hheard⟩ := ht.crash c rfl
    rw [hheard]
    split
    · exact (List.prefix_cons_inj n).mpr List.nil_prefix
    · exact List.nil_prefix
  · rename_i b₁ hc
    rw [hc] at ht hsole
    obtain ⟨js', hj, hheard⟩ := hnext b₁ hsole
    have hj₁ : b₁.journal = b.journal ++ js := ht.calm.journal
    refine ⟨js ++ js', ?_, fun k hk => ?_⟩
    · rw [hj, hj₁, List.append_assoc]
    · have hk' : k < b₁.members.length := by
        rw [ht.calm.size, hsize]
        exact hk
      rw [heardBy_append, ht.all rfl k (Nat.zero_le k) (hsize ▸ hk)]
      exact (List.prefix_cons_inj n).mpr (hheard k hk')

/-- **The report of a run that was broken off** is heard by everyone up to some notice. -/
theorem IsSole.trails_abort (h : b.IsSole run) (horizon : Nat) (c : Crash) :
    Trails (abortNotices c) b (abort run horizon c b) := by
  have h₀ : (b.setSignals run (b.runner.signals run).abandon).IsSole run :=
    h.goes (goes_setSignals fun hs => hs)
  refine h₀.trails_report fun b₁ h₁ => ?_
  refine h₁.trails_report fun b₂ h₂ => ?_
  refine h₂.trails_report fun b₃ h₃ => ?_
  exact ⟨[], (List.append_nil _).symm, fun _ _ => List.nil_prefix⟩

/-! ## 2. What the moves of a run tell -/

/-- According to the journal `js` every member hears all that the moves tell. -/
def HearsAll (b : Bench) (ms : List Move) (js : List (Nat × Happening)) : Prop :=
  ∀ k, k < b.members.length → heardBy k js = noticesOf ms

/-- According to the journal `js` a listener crashes at the last of the moves.  The members behind
it do not hear what that one tells.  Then everyone hears the report of it, up to some notice. -/
def BreaksOff (b : Bench) (ms : List Move) (js : List (Nat × Happening)) : Prop :=
  ¬ b.IsSteady ∧ ∃ ms₀ n m c, ms = ms₀ ++ [.told n] ∧ m < b.members.length ∧
    (∃ moment, (moment, .crashed m c) ∈ js) ∧
    ∀ k, k < b.members.length → ∃ report, report <+: abortNotices c ∧
      heardBy k js = noticesOf (if k ≤ m then ms else ms₀) ++ report

/-- The run is at this place of the course of its plan, if need be because it has ended there. -/
inductive IsAt (b : Bench) (run : Nat) (p : Plan) : Course → Prop
  | going {s : Stage} {c : Course} (h : b.runner.progress? run = some (.going s))
      (hs : s.StandsOn p c) : IsAt b run p c
  | ended (r : Except Refusal RunOutcome)
      (h : b.runner.progress? run = some (.ended (Course.outcomeOf r))) : IsAt b run p (.ended r)

/-- **What the audience hears of a run** while it goes along its course from the place `c`, `b'`
being the bench then: all that its moves tell, these being all that it makes, unless it is broken
off. -/
def Relates (b : Bench) (run : Nat) (p : Plan) (c : Course) (js : List (Nat × Happening))
    (b' : Bench) : Prop :=
  ∃ ms c', c.Trace ms c' ∧ (b.HearsAll ms js ∧ b'.IsAt run p c' ∨
    b.BreaksOff ms js ∧ ∃ reason, b'.runner.progress? run = some (.ended (.failed reason)))

/-- Moves that were made before, on a bench with the same audience. -/
theorem HearsAll.relates (h : b.HearsAll ms js) (ht : c.Trace ms c₁)
    (hsize : b₁.members.length = b.members.length) (hsteady : b.IsSteady → b₁.IsSteady)
    (h₁ : b₁.Relates run p c₁ js' b') : b.Relates run p c (js ++ js') b' := by
  obtain ⟨ms', c', ht', hcases⟩ := h₁
  refine ⟨ms ++ ms', c', ht.append ht', ?_⟩
  rcases hcases with ⟨hall, hat⟩ | ⟨⟨hs, ms₀, n, m, c, rfl, hm, ⟨moment, hcrash⟩, hheard⟩, ho⟩
  · refine .inl ⟨fun k hk => ?_, hat⟩
    rw [heardBy_append, noticesOf_append, h k hk, hall k (hsize ▸ hk)]
  · refine .inr ⟨⟨fun hb => hs (hsteady hb), ms ++ ms₀, n, m, c, (List.append_assoc ..).symm,
      hsize ▸ hm, ⟨moment, List.mem_append_right _ hcrash⟩, fun k hk => ?_⟩, ho⟩
    obtain ⟨report, hpre, hk'⟩ := hheard k (hsize ▸ hk)
    refine ⟨report, hpre, ?_⟩
    rw [heardBy_append, h k hk, hk', ← List.append_assoc, ← noticesOf_append]
    split <;> rfl

/-- A notice that breaks the run off, and the report of that. -/
theorem IsSole.breaksOff_abort (h : b.IsSole run) {crash : Crash}
    (hn : b.tell n = (b', some crash)) (horizon : Nat) :
    ∃ js, (abort run horizon crash b').journal = b.journal ++ js ∧ b.BreaksOff [.told n] js := by
  obtain ⟨js₁, ht, -, hsole⟩ := h.tells n
  rw [hn] at ht hsole
  have hj₁ : b'.journal = b.journal ++ js₁ := ht.calm.journal
  obtain ⟨hs, m, hm, ⟨moment, hcrash⟩, hheard⟩ := h.heardBy_crash hn hj₁
  obtain ⟨js₂, hj₂, hreport⟩ := hsole.trails_abort horizon crash
  refine ⟨js₁ ++ js₂, ?_, hs, [], n, m, crash, rfl, hm, ⟨moment, List.mem_append_left _ hcrash⟩,
    fun k hk => ⟨heardBy k js₂, hreport k ?_, ?_⟩⟩
  · rw [hj₂, hj₁, List.append_assoc]
  · rw [ht.calm.size, (observe_eq b n).2]
    exact hk
  · rw [heardBy_append, hheard]
    split <;> rfl

/-- A run that was broken off has failed. -/
theorem IsSole.failed_abort (h : b.IsSole run) (horizon : Nat) (crash : Crash) :
    ∃ reason, (abort run horizon crash b).runner.progress? run =
      some (.ended (.failed reason)) := by
  refine h.abort_cases (P := fun b' => ∃ reason, b'.runner.progress? run =
    some (.ended (.failed reason))) crash (fun _ _ _ hg => ?_) fun _ hg => ?_
  · exact ⟨_, (h.goes hg).progress?_lose _⟩
  · exact ⟨_, (h.goes hg).progress?_conclude _⟩

/-! ## 3. A run that is followed -/

theorem MakesAll.records (h : MakesAll run horizon b ms b') (hsole : b.IsSole run) :
    ∃ js, b.Records ms js b' := by
  induction h with
  | nil b => exact ⟨[], .silent rfl rfl rfl⟩
  | cons hm _ ih =>
    obtain ⟨js₁, hr₁, -⟩ := hm.works hsole
    obtain ⟨js₂, hr₂⟩ := ih (hsole.goes (hm.goes hsole.isBusy))
    exact ⟨js₁ ++ js₂, hr₁.trans hr₂⟩

theorem Wakes.records (h : Wakes run horizon b s ms b') : b.Records ms [] b' := by
  obtain ⟨moment, rfl⟩ := h.eq_clock
  exact .silent rfl rfl h.noticesOf_eq

/-- The run stands at the place `c` of the course of its plan, at the stage `s`. -/
structure StandsAt (b : Bench) (run : Nat) (p : Plan) (c : Course) (s : Stage) : Prop where
  going : b.runner.progress? run = some (.going s)
  stands : s.StandsOn p c

/-- The run comes to its end from the place `c` on, and `js` is what is written meanwhile. -/
structure Expires (b : Bench) (run : Nat) (p : Plan) (c : Course) (js : List (Nat × Happening))
    (b' : Bench) : Prop where
  ended : ∃ o, b'.runner.progress? run = some (.ended o)
  journal : b'.journal = b.journal ++ js
  relates : b.Relates run p c js b'

/-- **A halt of a run**: it stands where it is or has ended, and nobody hears anything of that.  Or
a listener breaks it off. -/
theorem Halts.stands_ends_or_breaks {broken : Crash → Bench → Bench}
    (h : Halts run horizon broken c b b') (hsole : b.IsSole run) :
    (∃ js, b.Records [] js b' ∧ b'.snapshot = b.snapshot ∧
      ((∃ s, b'.StandsAt run p c s ∧ s.isReady = false) ∨
        ∃ r, c = .ended r ∧ b'.runner.progress? run = some (.ended (Course.outcomeOf r)))) ∨
      ∃ n next b₁ crash, c = .tell n next ∧ b.tell n = (b₁, some crash) ∧ b' = broken crash b₁ := by
  cases h with
  | ended r =>
    exact .inl ⟨[], .silent rfl rfl rfl, snapshot_conclude _,
      .inr ⟨r, rfl, hsole.progress?_conclude _⟩⟩
  | broken hn => exact .inr ⟨_, _, _, _, rfl, hn, rfl⟩
  | resting =>
    exact .inl ⟨[], .silent rfl rfl rfl, rfl,
      .inl ⟨_, ⟨hsole.progress?_suspend _, .resting _ _ _⟩, rfl⟩⟩
  | @calling request _ _ _ _ _ _ =>
    have hsole' := hsole.goes (goes_note b (.sent request))
    exact .inl ⟨_, ⟨rfl, rfl, fun _ _ => rfl⟩, rfl,
      .inl ⟨_, ⟨hsole'.progress?_suspend _, .calling _ _ _ _ _⟩, rfl⟩⟩
  | parked =>
    exact .inl ⟨[], .silent rfl rfl rfl, rfl, .inl ⟨_, ⟨hsole.progress?_suspend _, .parked _⟩, rfl⟩⟩

/-- A halt of a run leaves it standing where it is, or is its end. -/
theorem Halts.stands_or_expires (h : Halts run horizon (abort run horizon) c b b')
    (hsole : b.IsSole run) :
    (∃ s js, b'.StandsAt run p c s ∧ b.Records [] js b') ∨ ∃ js, b.Expires run p c js b' := by
  rcases h.stands_ends_or_breaks (p := p) hsole with
    ⟨js, hr, -, ⟨s, hs, -⟩ | ⟨r, rfl, hended⟩⟩ | ⟨n, next, b₁, crash, rfl, hn, rfl⟩
  · exact .inl ⟨s, js, hs, hr⟩
  · exact .inr ⟨js, ⟨_, hended⟩, hr.journal, [], _, .nil _, .inl ⟨hr.heard, .ended r hended⟩⟩
  · obtain ⟨-, -, -, hsole'⟩ := hsole.tells n
    rw [hn] at hsole'
    obtain ⟨js, hj, hbreaks⟩ := hsole.breaksOff_abort hn horizon
    obtain ⟨reason, hfailed⟩ := hsole'.failed_abort horizon crash
    exact .inr ⟨js, ⟨_, hfailed⟩, hj, _, _, .cons .tell (.nil _), .inr ⟨hbreaks, reason, hfailed⟩⟩

/-- **A run that is followed comes to a halt**, after moves that everyone hears, unless it still has
to wait where it stands. -/
theorem StandsAt.halts (h : b.StandsAt run p c s) (hord : b.Orderly) (horizon : Nat) :
    (b.proceed horizon run = b ∧ s.isReady = false) ∨
      ∃ ms c₁ b₁ js, c.Trace ms c₁ ∧ b.Goes ms b₁ ∧ b.Records ms js b₁ ∧
        Halts run horizon (abort run horizon) c₁ b₁ (b.proceed horizon run) := by
  have hsole := hord.isSole h.going
  rw [proceed_of_going horizon h.going]
  rcases resume_wakes b run horizon h.stands with hwaits | ⟨ms₁, c₁, b₁, hw, ht₁, he, -⟩
  · exact .inl hwaits
  · obtain ⟨ms₂, c₂, b₂, ht₂, hms, hh⟩ := follow_makes run horizon (abort run horizon) c₁ b₁
    rw [← he] at hh
    have hsole₁ := hsole.goes hw.goes
    have hg := hw.goes.trans (hms.goes hsole₁.isBusy)
    obtain ⟨js, hr⟩ := hms.records hsole₁
    exact .inr ⟨ms₁ ++ ms₂, c₂, b₂, js, ht₁.append ht₂, hg, hw.records.trans hr, hh⟩

/-- **What the audience hears when a run is followed** from the place where it stands. -/
theorem StandsAt.proceed (h : b.StandsAt run p c s) (hord : b.Orderly) (horizon : Nat) :
    (∃ s' c' ms js, (b.proceed horizon run).StandsAt run p c' s' ∧ c.Trace ms c' ∧
        b.Records ms js (b.proceed horizon run)) ∨
      ∃ js, b.Expires run p c js (b.proceed horizon run) := by
  rcases h.halts hord horizon with ⟨he, -⟩ | ⟨ms, c₁, b₁, js, ht, hg, hr, hh⟩
  · rw [he]
    exact .inl ⟨s, c, [], [], h, .nil c, .silent rfl rfl rfl⟩
  · rcases hh.stands_or_expires (p := p) ((hord.isSole h.going).goes hg) with
      ⟨s', js', hstands, hr'⟩ | ⟨js', hended, hj, hrelates⟩
    · refine .inl ⟨s', c₁, ms, js ++ js', hstands, ht, ?_⟩
      rw [← List.append_nil ms]
      exact hr.trans hr'
    · refine .inr ⟨js ++ js', hended, ?_, HearsAll.relates hr.heard ht hr.size hg.steady hrelates⟩
      rw [hj, hr.journal, List.append_assoc]

end DeviceScript.Bench
