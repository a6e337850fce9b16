import DeviceScript.Proofs.Bench.Glimpses
/-!
# What the members of an audience hear of one run

All that is told of a run is told to the whole audience, one notice after the other.  So its members
hear the same of it, up to one thing: a listener that crashes when it is told something keeps that
notice from the members behind it, and only that one.  What is told of a run is a list of tellings
(`Telling`), each of them a notice with the member that crashed at it if one did, and what a member
hears is the notices of those tellings that reach it (`Bench.audience_of_history`).  The report of a
run that was broken off is told in this way too.

One telling is read off what telling does to a bench (`Bench.IsSole.carries_tell`); that there is no
other crash in it comes from the count of crashes.  The rest is putting tellings one behind the
other, along the moves of a run and along the turns in which it is followed.
-/

namespace DeviceScript

/-! ## 1. Tellings -/

/-- One notice that is told to the audience, and the member that crashes at it if one does. -/
structure Telling where
  notice : Notice
  crashed : Option Nat
  deriving Repr, DecidableEq

/-- Whether this member is told: nobody behind the one that crashes is. -/
def Telling.reaches (t : Telling) (member : Nat) : Bool :=
  t.crashed.all (member ≤ ·)

/-- What this member hears of some tellings. -/
def heardOf (member : Nat) (ts : List Telling) : List Notice :=
  (ts.filter (·.reaches member)).map (·.notice)

/-- The member that crashed according to a line of the journal. -/
def crasherIn : Nat × Happening → Option Nat
  | (_, .crashed member _) => some member
  | _ => none

/-- The members that crashed according to the journal `js`, in order. -/
def crashersIn (js : List (Nat × Happening)) : List Nat := js.filterMap crasherIn

/-- The journal `js` of an audience of this size says that these notices were told. -/
structure Attests (size : Nat) (ts : List Telling) (js : List (Nat × Happening)) : Prop where
  heard : ∀ k, k < size → heardBy k js = heardOf k ts
  crashed : crashersIn js = ts.filterMap (·.crashed)

section Attests

variable {size k : Nat} {ts ts' : List Telling} {js js' : List (Nat × Happening)} {n : Notice}
  {ns : List Notice}

theorem heardOf_append : heardOf k (ts ++ ts') = heardOf k ts ++ heardOf k ts' := by
  rw [heardOf, List.filter_append, List.map_append]
  rfl

theorem crashersIn_append : crashersIn (js ++ js') = crashersIn js ++ crashersIn js' :=
  List.filterMap_append

/-- They are as many as there were crashes. -/
theorem length_crashersIn (js : List (Nat × Happening)) :
    (crashersIn js).length = crashesIn js := by
  induction js with
  | nil => rfl
  | cons e js ih =>
    obtain ⟨moment, h⟩ := e
    rw [crashersIn, crashesIn, List.filterMap_cons, List.countP_cons, ← crashesIn, ← ih]
    cases h <;> rfl

theorem crashersIn_eq_nil (h : crashesIn js = 0) : crashersIn js = [] :=
  List.eq_nil_of_length_eq_zero ((length_crashersIn js).trans h)

/-- The only crash that was noted. -/
theorem crashersIn_eq_singleton {moment member : Nat} {c : Crash} (h : crashesIn js = 1)
    (hmem : (moment, .crashed member c) ∈ js) : crashersIn js = [member] := by
  obtain ⟨m, hm⟩ := List.length_eq_one_iff.mp ((length_crashersIn js).trans h)
  have hin : member ∈ crashersIn js := List.mem_filterMap.mpr ⟨_, hmem, rfl⟩
  rw [hm, List.mem_singleton] at hin
  rw [hm, hin]

/-- Without a crash every member hears everything. -/
theorem heardOf_of_uncrashed (h : ∀ t ∈ ts, t.crashed = none) : heardOf k ts = ts.map (·.notice) := by
  rw [heardOf, List.filter_eq_self.mpr]
  intro t ht
  rw [Telling.reaches, h t ht]
  rfl

theorem Attests.append (h : Attests size ts js) (h' : Attests size ts' js') :
    Attests size (ts ++ ts') (js ++ js') where
  heard k hk := by rw [heardBy_append, heardOf_append, h.heard k hk, h'.heard k hk]
  crashed := by rw [crashersIn_append, List.filterMap_append, h.crashed, h'.crashed]

/-- What everyone hears, without a crash. -/
theorem attests_of_heard (h : ∀ k, k < size → heardBy k js = ns) (hc : crashesIn js = 0) :
    Attests size (ns.map (⟨·, none⟩)) js where
  heard k hk := by
    rw [h k hk, heardOf_of_uncrashed (by simp), List.map_map]
    exact (List.map_id ns).symm
  crashed := by
    rw [crashersIn_eq_nil hc, List.filterMap_map]
    exact (List.filterMap_eq_nil_iff.mpr fun _ _ => rfl).symm

/-- Where nobody crashed all members hear the same. -/
theorem Attests.same (h : Attests size ts js) (hc : crashersIn js = []) (hk : k < size) :
    heardBy k js = ts.map (·.notice) := by
  rw [h.heard k hk, heardOf_of_uncrashed]
  intro t ht
  have hnil := List.filterMap_eq_nil_iff.mp (h.crashed.symm.trans hc)
  exact hnil t ht

end Attests

namespace Bench

variable {b b' b₁ b₂ : Bench} {run horizon : Nat} {ts ts' : List Telling}
  {js js' : List (Nat × Happening)} {ms : List Move} {c : Course}

/-! ## 2. One run -/

/-- From the bench `b` to `b'` these notices are told, and `js` is written into the journal.  As long
as no member ever crashes none of the notices is cut short. -/
structure Carries (b : Bench) (ts : List Telling) (js : List (Nat × Happening)) (b' : Bench) :
    Prop where
  size : b'.members.length = b.members.length
  journal : b'.journal = b.journal ++ js
  attests : Attests b.members.length ts js
  steady : b.IsSteady → b'.IsSteady ∧ ∀ t ∈ ts, t.crashed = none

theorem Carries.trans (h : b.Carries ts js b₁) (h' : b₁.Carries ts' js' b₂) :
    b.Carries (ts ++ ts') (js ++ js') b₂ where
  size := h'.size.trans h.size
  journal := by rw [h'.journal, h.journal, List.append_assoc]
  attests := h.attests.append (h.size ▸ h'.attests)
  steady hs := by
    obtain ⟨hs₁, h₁⟩ := h.steady hs
    obtain ⟨hs₂, h₂⟩ := h'.steady hs₁
    exact ⟨hs₂, List.forall_mem_append.mpr ⟨h₁, h₂⟩⟩

/-- Nothing is told. -/
theorem carries_silent (hsize : b'.members.length = b.members.length)
    (hj : b'.journal = b.journal) (hsteady : b.IsSteady → b'.IsSteady) : b.Carries [] [] b' where
  size := hsize
  journal := hj.trans (List.append_nil _).symm
  attests := ⟨fun _ _ => rfl, rfl⟩
  steady hs := ⟨hsteady hs, fun _ ht => absurd ht List.not_mem_nil⟩

theorem crashesIn_of_journal (hj : b'.journal = b.journal ++ js) :
    b'.crashes = b.crashes + crashesIn js := by
  rw [crashes, hj, crashesIn_append]
  rfl

/-- What is heard by all, without a crash. -/
theorem Records.carries (h : b.Records ms js b') (hk : b'.crashes = b.crashes)
    (hsteady : b.IsSteady → b'.IsSteady) :
    b.Carries ((noticesOf ms).map (⟨·, none⟩)) js b' where
  size := h.size
  journal := h.journal
  attests := by
    have hcount := crashesIn_of_journal h.journal
    exact attests_of_heard h.heard (by omega)
  steady hs := ⟨hsteady hs, by simp⟩

/-- **A notice of the active run** is one telling: all members are told, or all up to one that
crashes, and there is no other crash. -/
theorem IsSole.carries_tell (h : b.IsSole run) (n : Notice) :
    ∃ crashed js, b.Carries [⟨n, crashed⟩] js (b.tell n).1 := by
  obtain ⟨js, ht, hg, -⟩ := h.tells n
  have hmembers := (observe_eq b n).2
  have hcount : (b.tell n).1.crashes = b.crashes + (b.tell n).2.toList.length := counts_tell b n
  have hjournal : (b.tell n).1.journal = b.journal ++ js := ht.calm.journal
  have hsize : (b.tell n).1.members.length = b.members.length := by rw [ht.calm.size, hmembers]
  rw [crashesIn_of_journal hjournal] at hcount
  cases hc : (b.tell n).2 with
  | none =>
    rw [hc] at hcount
    have hall : ∀ k, k < b.members.length → heardBy k js = [n] :=
      fun k hk => ht.all hc k (Nat.zero_le k) (hmembers ▸ hk)
    exact ⟨none, js, hsize, hjournal, attests_of_heard hall (by simpa using hcount),
      fun hs => ⟨hg.steady hs, by simp⟩⟩
  | some crash =>
    rw [hc] at hcount
    obtain ⟨m, -, -, ⟨moment, hmem⟩, hheard⟩ := ht.crash crash hc
    refine ⟨some m, js, hsize, hjournal, ⟨fun k _ => ?_, ?_⟩, fun hs => ?_⟩
    · rw [hheard]
      by_cases hk : k ≤ m <;> simp [heardOf, Telling.reaches, hk]
    · exact crashersIn_eq_singleton (by simpa using hcount) hmem
    · have hnone := ht.steady ((goes_observe b n).steady hs)
      cases hc.symm.trans hnone

/-- **Following a run is telling notices**, if what is done about a crash is. -/
theorem IsSole.carries_follow {broken : Crash → Bench → Bench}
    (hbroken : ∀ crash (b' : Bench), b'.IsSole run → ∃ ts js, b'.Carries ts js (broken crash b'))
    (horizon : Nat) (c : Course) (h : b.IsSole run) :
    ∃ ts js, b.Carries ts js (follow run horizon broken c b) := by
  obtain ⟨ms, c₁, b₁, -, hms, hh⟩ := follow_makes run horizon broken c b
  have hg := hms.goes h.isBusy
  have h₁ := h.goes hg
  obtain ⟨js, hrecords⟩ := hms.records h
  have hmoves := hrecords.carries hms.crashes_eq hg.steady
  generalize follow run horizon broken c b = b' at hh ⊢
  cases hh with
  | ended | resting | parked => exact ⟨_, _, hmoves.trans (carries_silent rfl rfl id)⟩
  | @calling request _ _ _ _ _ _ =>
    have hsent : b₁.Records [] [(b₁.now, .sent request)] (b₁.note (.sent request)) :=
      ⟨rfl, rfl, fun _ _ => rfl⟩
    have hnoted := hsent.carries (crashes_note_of_neg rfl) fun hs => hs
    exact ⟨_, _, (hmoves.trans hnoted).trans (carries_silent rfl rfl id)⟩
  | @broken n _ _ b₂ crash ht =>
    obtain ⟨crashed, js₁, htold⟩ := h₁.carries_tell n
    obtain ⟨-, -, -, h₂⟩ := h₁.tells n
    rw [ht] at htold h₂
    obtain ⟨ts₂, js₂, hrest⟩ := hbroken crash b₂ h₂
    exact ⟨_, _, (hmoves.trans htold).trans hrest⟩

/-- The report of a run that was broken off is told in the same way. -/
theorem IsSole.carries_abort (horizon : Nat) (crash : Crash) (b : Bench) (h : b.IsSole run) :
    ∃ ts js, b.Carries ts js (abort run horizon crash b) := by
  have h₀ : (b.setSignals run (b.runner.signals run).abandon).IsSole run :=
    h.goes (goes_setSignals fun hs => hs)
  have hset : b.Carries [] [] (b.setSignals run (b.runner.signals run).abandon) :=
    carries_silent rfl rfl id
  have hlose : ∀ crash (b' : Bench), b'.IsSole run → ∃ ts js, b'.Carries ts js (b'.lose run crash) :=
    fun _ _ _ => ⟨_, _, carries_silent rfl rfl id⟩
  obtain ⟨ts, js, hreport⟩ := h₀.carries_follow hlose horizon crash.abortReport
  exact ⟨_, _, hset.trans hreport⟩

theorem Orderly.carries_proceed (h : b.Orderly) (horizon run : Nat) :
    ∃ ts js, b.Carries ts js (b.proceed horizon run) := by
  rcases h.proceed_follows horizon run with he | ⟨s, ms, c, b₁, hs, hw, he⟩
  · rw [he]
    exact ⟨_, _, carries_silent rfl rfl id⟩
  · have hsole := (h.isSole hs).goes hw.goes
    obtain ⟨ts, js, hrest⟩ := hsole.carries_follow (IsSole.carries_abort horizon) horizon c
    rw [he]
    exact ⟨_, _, (hw.records.carries hw.crashes_eq hw.goes.steady).trans hrest⟩

/-! ## 3. The lines of a run -/

/-- The lines with the label of this run. -/
def linesOf (run : Nat) (l : List (Option Nat × (Nat × Happening))) : List (Nat × Happening) :=
  (l.filter fun e => e.1 = some run).map (·.2)

theorem linesOf_append (run : Nat) (l l' : List (Option Nat × (Nat × Happening))) :
    linesOf run (l ++ l') = linesOf run l ++ linesOf run l' := by
  rw [linesOf, List.filter_append, List.map_append]
  rfl

theorem linesOf_map (run : Nat) (label : Option Nat) (js : List (Nat × Happening)) :
    linesOf run (js.map (label, ·)) = if label = some run then js else [] := by
  by_cases h : label = some run <;> simp [linesOf, List.filter_map, Function.comp_def, h]

theorem linesOf_eq_nil {l : List (Option Nat × (Nat × Happening))}
    (h : ∀ e ∈ l, e.1 ≠ some run) : linesOf run l = [] := by
  rw [linesOf, List.filter_eq_nil_iff.mpr (by simpa using h)]
  rfl

/-- The lines of a run that are one piece are that piece. -/
theorem IsPieceOf.linesOf_eq {piece : List (Nat × Happening)}
    {l : List (Option Nat × (Nat × Happening))} (h : IsPieceOf run piece l) :
    linesOf run l = piece := by
  obtain ⟨before, behind, rfl, hbefore, hbehind⟩ := h
  have h₁ : linesOf run before = [] :=
    linesOf_eq_nil fun e he hlabel => Nat.lt_irrefl run (hbefore e he run hlabel)
  have h₂ : linesOf run behind = [] :=
    linesOf_eq_nil fun e he hlabel => Nat.lt_irrefl run (hbehind e he run hlabel)
  rw [linesOf_append, linesOf_append, h₁, h₂, linesOf_map, if_pos rfl, List.append_nil]
  rfl

/-- **What is told of a run in the course of some turns.**  By induction on the turns, in each of
which it is followed or not. -/
theorem Orderly.attests_chronicle (run : Nat) : ∀ (turns : List Turn) {b : Bench}, b.Orderly →
    ∃ ts, Attests b.members.length ts (linesOf run (b.chronicle turns)) ∧
      (b.IsSteady → ∀ t ∈ ts, t.crashed = none)
  | [], _, _ => ⟨[], ⟨fun _ _ => rfl, rfl⟩, fun _ _ ht => absurd ht List.not_mem_nil⟩
  | t :: turns, b, h => by
    obtain ⟨ts, hattests, hsteady⟩ := Orderly.attests_chronicle run turns (h.turn t)
    rw [size_turn] at hattests
    rw [chronicle, linesOf_append, linesOf_map]
    by_cases hrun : t.run? = some run
    · cases t with
      | control | devices | clock => cases hrun
      | proceed horizon followed =>
        obtain rfl : followed = run := Option.some.inj hrun
        obtain ⟨ts₀, js, hcarries⟩ := h.carries_proceed horizon followed
        have hwrote : b.wrote (.proceed horizon followed) = js := wrote_of_journal hcarries.journal
        rw [if_pos hrun, hwrote]
        refine ⟨ts₀ ++ ts, hcarries.attests.append hattests, fun hs => ?_⟩
        obtain ⟨hs', hnone⟩ := hcarries.steady hs
        exact List.forall_mem_append.mpr ⟨hnone, hsteady hs'⟩
    · rw [if_neg hrun, List.nil_append]
      exact ⟨ts, hattests, fun hs => hsteady (h.isSteady_turn hs t)⟩

/-! ## 4. All histories -/

/-- **What an audience hears.**  On a bench on which nothing has happened anything may happen, in any
order, whatever the members are and do meanwhile; it is `b` then.

Who is told something, of a run or of a reset, is told when the runner shows it already: the line,
the state, or the event as the newest one of the log.

The lines of each run are one piece of the chronicle, told along the course of the script with which
it was started, and they say that some notices were told to the audience, one after the other.  Each
member hears them all, in this order, but for those at which a member before it crashed; the members
that crashed are named.  So where none crashed they all hear the same, and none crashes in an
audience whose members never do. -/
theorem audience_of_history {b₀ b : Bench} {logCapacity : Nat} {timing : Timing}
    {registry : Registry} {gateway : Gateway} {members : List Member} {nesting : Nat}
    {turns : List Turn} (hb₀ : b₀ = create logCapacity timing registry gateway members nesting)
    (hb : b = b₀.after turns) :
    (∀ e ∈ b.journal, IsUpToDate e) ∧
      ∀ run, ∃ (piece : List (Nat × Happening)) (ts : List Telling),
        IsPieceOf run piece (b₀.chronicle turns) ∧
        (∀ p, b₀.Starts turns run p → b₀.Relates run p p.course piece b) ∧
        (∀ k, k < members.length →
          heardBy k piece = (ts.filter (·.reaches k)).map (·.notice)) ∧
        crashersIn piece = ts.filterMap (·.crashed) ∧
        (crashersIn piece = [] → ∀ k, k < members.length → heardBy k piece = ts.map (·.notice)) ∧
        ((∀ m ∈ members, m.IsSteady) → crashersIn piece = []) := by
  have hreach : b₀.IsReachable := hb₀ ▸ isReachable_create _ _ _ _ _ _
  have hord := orderly_of_isReachable hreach
  have hmembers : b₀.members = members := by rw [hb₀]; rfl
  have hnone : ∀ run, b₀.runner.progress? run = none := by
    intro run
    rw [hb₀]
    rfl
  have hempty : b₀.IsFaithful := by
    intro e he
    rw [hb₀] at he
    cases he
  refine ⟨hb ▸ isFaithful_after turns hempty hord, fun run => ?_⟩
  obtain ⟨ts, hattests, hsteady⟩ := hord.attests_chronicle run turns
  obtain ⟨piece, hpiece⟩ : ∃ piece, IsPieceOf run piece (b₀.chronicle turns) := by
    rcases exists_speaks run turns hreach (hnone run) with ⟨hpiece, -⟩ | ⟨p, -, ⟨piece, hpiece, -⟩, -⟩
    · exact ⟨[], hpiece⟩
    · exact ⟨piece, hpiece⟩
  rw [hpiece.linesOf_eq, hmembers] at hattests
  refine ⟨piece, ts, hpiece, fun p hp => ?_, hattests.heard, hattests.crashed, fun hc k hk => ?_,
    fun hs => ?_⟩
  · obtain ⟨piece', hpiece', hrelates⟩ := hp.speaks hreach (hnone run)
    rw [hb, ← hpiece.linesOf_eq, hpiece'.linesOf_eq]
    exact hrelates
  · exact hattests.same hc hk
  · have hs₀ : b₀.IsSteady := by
      rw [IsSteady, hmembers]
      exact hs
    rw [hattests.crashed]
    exact List.filterMap_eq_nil_iff.mpr (hsteady hs₀)

/-- A bench on which a listener that crashes when a run has begun stands before one that does
nothing. -/
def unevenBench : Bench :=
  create 10 {} (Registry.empty.register "alpha" .network fun _ => .after 5 (.replied .ok)) .registry
    [Reaction.listener fallsOnce, Reaction.listener []] (Reaction.nesting fallsOnce)

/-- A run of one wait. -/
def waitingRun : List Turn :=
  [.control (.start ⟨none, ["wait 0"]⟩ .continuous), .proceed 1000 0]

theorem audience_of_waitingRun :
    (∀ e ∈ (unevenBench.after waitingRun).journal, IsUpToDate e) ∧
      ∃ (piece : List (Nat × Happening)) (ts : List Telling),
        IsPieceOf 0 piece (unevenBench.chronicle waitingRun) ∧
        heardBy 0 piece = (ts.filter (·.reaches 0)).map (·.notice) ∧
        heardBy 1 piece = (ts.filter (·.reaches 1)).map (·.notice) ∧
        ts.filterMap (·.crashed) = [0] ∧ (heardBy 1 piece).length = 4 := by
  obtain ⟨hfaithful, hruns⟩ :=
    audience_of_history (Eq.refl unevenBench) (Eq.refl (unevenBench.after waitingRun))
  obtain ⟨piece, ts, hpiece, -, hheard, hcrashed, -⟩ := hruns 0
  have hlines := hpiece.linesOf_eq
  refine ⟨hfaithful, piece, ts, hpiece, hheard 0 (by decide), hheard 1 (by decide), ?_, ?_⟩
  · rw [← hcrashed, ← hlines]
    decide +kernel
  · rw [← hlines]
    decide +kernel

/-- **A notice that not all members hear.**  The first listener crashes when it is told that the run
has begun, and the one behind it is not told. -/
theorem exists_unlike_hearing :
    unevenBench.Starts waitingRun 0 ⟨⟨none, ["wait 0"]⟩, .continuous, {}⟩ ∧
      ∃ piece, IsPieceOf 0 piece (unevenBench.chronicle waitingRun) ∧
        heardBy 0 piece = [.started none, .state .running] ++ abortNotices ⟨some "first"⟩ ∧
        heardBy 1 piece = [.started none] ++ abortNotices ⟨some "first"⟩ := by
  have hstarts : unevenBench.Starts waitingRun 0 ⟨⟨none, ["wait 0"]⟩, .continuous, {}⟩ :=
    ⟨[_], [_], rfl, rfl⟩
  obtain ⟨piece, hpiece, -⟩ := hstarts.speaks (isReachable_create _ _ _ _ _ _) rfl
  have hlines := hpiece.linesOf_eq
  refine ⟨hstarts, piece, hpiece, ?_, ?_⟩ <;> rw [← hlines] <;> decide +kernel

end Bench

end DeviceScript
