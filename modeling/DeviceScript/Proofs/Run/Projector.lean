import DeviceScript.Proofs.Course.States
import DeviceScript.Runner
/-!
# The projector and those who look at it

A projector shows the state and the cursor that it was told last (`Snapshot.lastTold`).  Whoever
looks at it now and then wants to know whether there is anything new, and that is not a question of
what is shown at the two moments: a run may have been paused and continued in between.  So a
receiver does not remember what it saw but how many changes there had been, and it reports a change
exactly when a notice that it has not looked at since altered what was shown when it came
(`Watch.reports_after`).

The history decides what is shown and what a receiver has missed.  The projector has only the
snapshots that it made known (`Projector.published_hear`), and a receiver only how many there were.
One relation ties the two together (`Watch.Tracks`).  Every act keeps it: a notice moves the count
on exactly when it alters the snapshot (`Projector.changes_hear`), and a receiver that subscribes or
looks takes the count as it is.
-/

namespace DeviceScript

/-! ## 1. What is shown -/

/-- The last state and the last cursor that some notices make known: idle and at no line as long as
they make known none. -/
def Snapshot.lastTold (ns : List Notice) : Snapshot where
  state := (ns.filterMap Notice.state?).getLast?.getD .idle
  cursor := (ns.filterMap Notice.cursor?).getLast?.getD none

/-- A notice that comes after others alters what they leave behind. -/
def Notice.Alters (n : Notice) (earlier : List Notice) : Prop :=
  Snapshot.lastTold (earlier ++ [n]) ≠ Snapshot.lastTold earlier
  deriving Decidable

namespace Snapshot

variable {earlier : List Notice} {n : Notice}

/-- Whoever was idle at no line and heard some notices shows what they told last. -/
theorem hearAll_eq_lastTold (ns : List Notice) : hearAll {} ns = lastTold ns := by
  have hstate := state_hearAll ns {}
  have hcursor := cursor_hearAll ns {}
  rw [List.getLast?_cons, Option.some.injEq] at hstate hcursor
  rw [lastTold, hstate, hcursor]

/-- One more notice is heard. -/
theorem lastTold_concat (earlier : List Notice) (n : Notice) :
    lastTold (earlier ++ [n]) = (lastTold earlier).hear n := by
  rw [← hearAll_eq_lastTold, ← hearAll_eq_lastTold, hearAll_append]
  rfl

/-- **What alters a snapshot**: another state or another cursor than the one that is shown, and
nothing else. -/
theorem alters_iff :
    n.Alters earlier ↔ (∃ s, n = .state s ∧ s ≠ (lastTold earlier).state) ∨
      ∃ line, n = .cursor line ∧ line ≠ (lastTold earlier).cursor := by
  unfold Notice.Alters
  rw [lastTold_concat]
  obtain ⟨state, cursor⟩ := lastTold earlier
  cases n with
  | state s => simp [hear]
  | cursor line => simp [hear]
  | started name => simp [hear]
  | log e => simp [hear]

end Snapshot

/-! ## 2. What a projector hears -/

namespace Projector

variable {p : Projector} {n : Notice}

/-- The projector after it heard a notice. -/
def hear (p : Projector) : Notice → Projector
  | .cursor line => p.setCursor line
  | .state s => p.setState s
  | _ => p

/-- The projector of a runner hears what the runner observes. -/
theorem projector_observe (r : Runner) (moment : Timestamp) (n : Notice) :
    (r.observe moment n).projector = r.projector.hear n := by
  cases n <;> rfl

theorem snapshot_hear (p : Projector) (n : Notice) : (p.hear n).snapshot = p.snapshot.hear n := by
  cases n with
  | cursor line => exact snapshot_publish _ _
  | state s => exact snapshot_publish _ _
  | started name => rfl
  | log e => rfl

/-- The projector after it heard some notices, the first one first. -/
def hearAll (p : Projector) (ns : List Notice) : Projector := ns.foldl hear p

theorem hearAll_append (p : Projector) (ns₁ ns₂ : List Notice) :
    p.hearAll (ns₁ ++ ns₂) = (p.hearAll ns₁).hearAll ns₂ :=
  List.foldl_append

theorem snapshot_hearAll (ns : List Notice) :
    ∀ p : Projector, (p.hearAll ns).snapshot = p.snapshot.hearAll ns := by
  induction ns with
  | nil => exact fun _ => rfl
  | cons n ns ih =>
    intro p
    refine (ih (p.hear n)).trans ?_
    rw [snapshot_hear]
    rfl

/-- **What is made known is what alters the snapshot**, and nothing else. -/
theorem published_hear (p : Projector) (n : Notice) :
    (p.hear n).published =
      p.published ++ if p.snapshot.hear n = p.snapshot then [] else [p.snapshot.hear n] := by
  have hpublish : ∀ s, (p.publish s).published =
      p.published ++ if s = p.snapshot then [] else [s] := by
    intro s
    unfold publish
    split <;> simp
  cases n with
  | cursor line => exact hpublish _
  | state s => exact hpublish _
  | started name => simp [hear, Snapshot.hear]
  | log e => simp [hear, Snapshot.hear]

/-- **The count moves on exactly when the snapshot is altered.** -/
theorem changes_hear (p : Projector) (n : Notice) :
    (p.hear n).changes =
      if p.snapshot.hear n = p.snapshot then p.changes else p.changes + 1 := by
  rw [changes, changes, published_hear, List.length_append]
  split <;> rfl

end Projector

/-! ## 3. Receivers -/

/-- A projector with its receivers in the order in which they subscribed: for each of them, how
many changes there had been when it last looked. -/
structure Watch where
  projector : Projector := {}
  seen : List Nat := []

namespace Watch

/-- What can happen to a projector and its receivers. -/
inductive Act where
  | hear (n : Notice)
  /-- There is one more receiver, to which the snapshot that is shown is nothing new. -/
  | subscribe
  /-- A receiver looks at the snapshot that is shown. -/
  | look (receiver : Nat)
  deriving DecidableEq

/-- What an act leaves behind. -/
def act (w : Watch) : Act → Watch
  | .hear n => { w with projector := w.projector.hear n }
  | .subscribe => { w with seen := w.seen ++ [w.projector.changes] }
  | .look receiver => { w with seen := w.seen.set receiver w.projector.changes }

/-- What some acts leave behind, the first one first. -/
def after (w : Watch) (acts : List Act) : Watch := acts.foldl act w

/-- Whether a receiver reports a change, if there is such a receiver. -/
def report? (w : Watch) (receiver : Nat) : Option Bool :=
  w.seen[receiver]?.map w.projector.hasChanged

/-- The notice that an act brings. -/
def Act.notice? : Act → Option Notice
  | .hear n => some n
  | _ => none

/-- The notices among some acts. -/
def noticesIn (acts : List Act) : List Notice := acts.filterMap Act.notice?

/-- Among the acts there is a notice that altered what was shown when it came, to a receiver that
had subscribed by then and has not looked since. -/
def HasMissed (acts : List Act) (receiver : Nat) : Prop :=
  ∃ before n since, acts = before ++ .hear n :: since ∧ receiver < before.count .subscribe ∧
    .look receiver ∉ since ∧ n.Alters (noticesIn before)

section History

variable {acts : List Act} {receiver : Nat}

theorem after_concat (w : Watch) (acts : List Act) (a : Act) :
    w.after (acts ++ [a]) = (w.after acts).act a := by
  simp [after]

@[simp] theorem noticesIn_hear (acts : List Act) (n : Notice) :
    noticesIn (acts ++ [.hear n]) = noticesIn acts ++ [n] := by
  simp [noticesIn, Act.notice?]

@[simp] theorem noticesIn_subscribe (acts : List Act) :
    noticesIn (acts ++ [.subscribe]) = noticesIn acts := by
  simp [noticesIn, Act.notice?]

@[simp] theorem noticesIn_look (acts : List Act) (looker : Nat) :
    noticesIn (acts ++ [.look looker]) = noticesIn acts := by
  simp [noticesIn, Act.notice?]

/-- Who has missed something has subscribed. -/
theorem HasMissed.lt (h : HasMissed acts receiver) : receiver < acts.count .subscribe := by
  obtain ⟨before, n, since, rfl, hlt, -, -⟩ := h
  rw [List.count_append]
  exact Nat.lt_add_right _ hlt

/-- **One more act.**  What was missed stays missed until the receiver looks, and a notice that
alters the snapshot is missed by all receivers. -/
theorem hasMissed_concat {a : Act} :
    HasMissed (acts ++ [a]) receiver ↔
      HasMissed acts receiver ∧ a ≠ .look receiver ∨
        ∃ n, a = .hear n ∧ receiver < acts.count .subscribe ∧ n.Alters (noticesIn acts) := by
  constructor
  · rintro ⟨before, n, since, heq, hlt, hlook, halters⟩
    -- The notice is the last act, or the last act comes after it.
    rcases List.eq_nil_or_concat since with rfl | ⟨since, b, rfl⟩
    · obtain ⟨rfl, ha⟩ := List.append_inj' heq rfl
      exact .inr ⟨n, List.singleton_inj.mp ha, hlt, halters⟩
    · rw [List.concat_eq_append, ← List.cons_append, ← List.append_assoc] at heq
      obtain ⟨rfl, ha⟩ := List.append_inj' heq rfl
      obtain rfl := List.singleton_inj.mp ha
      rw [List.concat_eq_append, List.mem_append, not_or, List.mem_singleton] at hlook
      exact .inl ⟨⟨before, n, since, rfl, hlt, hlook.1, halters⟩, Ne.symm hlook.2⟩
  · rintro (⟨⟨before, n, since, rfl, hlt, hlook, halters⟩, ha⟩ | ⟨n, rfl, hlt, halters⟩)
    · refine ⟨before, n, since ++ [a], by simp, hlt, ?_, halters⟩
      rw [List.mem_append, not_or, List.mem_singleton]
      exact ⟨hlook, Ne.symm ha⟩
    · exact ⟨acts, n, [], rfl, hlt, List.not_mem_nil, halters⟩

end History

/-! ## 4. One act -/

/-- The projector and its receivers are what these acts have made of them. -/
structure Tracks (w : Watch) (acts : List Act) : Prop where
  snapshot : w.projector.snapshot = .lastTold (noticesIn acts)
  receivers : w.seen.length = acts.count .subscribe
  /-- No receiver has seen a change that has not come yet, … -/
  seen_le : ∀ seen ∈ w.seen, seen ≤ w.projector.changes
  /-- … and one that has not seen them all has missed something. -/
  behind_iff : ∀ receiver seen, w.seen[receiver]? = some seen →
    (seen < w.projector.changes ↔ HasMissed acts receiver)

namespace Tracks

variable {w : Watch} {acts : List Act}

/-- A projector that has heard nothing, without receivers. -/
theorem nil : Tracks {} [] where
  snapshot := rfl
  receivers := rfl
  seen_le := nofun
  behind_iff _ _ h := nomatch h

/-- The receivers that there are have subscribed. -/
theorem lt_of_seen (h : w.Tracks acts) {receiver seen : Nat} (hseen : w.seen[receiver]? = some seen) :
    receiver < acts.count .subscribe := by
  obtain ⟨hlt, -⟩ := List.getElem?_eq_some_iff.mp hseen
  rwa [← h.receivers]

/-- **A notice** leaves every receiver behind if it alters the snapshot, and otherwise it leaves all
as it is. -/
theorem hear (h : w.Tracks acts) (n : Notice) : (w.act (.hear n)).Tracks (acts ++ [.hear n]) := by
  have hchanges : (w.act (.hear n)).projector.changes = if n.Alters (noticesIn acts) then
      w.projector.changes + 1 else w.projector.changes := by
    refine (w.projector.changes_hear n).trans ?_
    simp only [h.snapshot, Notice.Alters, Snapshot.lastTold_concat, ite_not]
  exact {
    snapshot := by
      rw [noticesIn_hear, Snapshot.lastTold_concat, ← h.snapshot]
      exact w.projector.snapshot_hear n
    receivers := h.receivers.trans (by simp)
    seen_le := fun seen hseen => by
      have hle := h.seen_le seen hseen
      rw [hchanges]
      split <;> omega
    behind_iff := fun receiver seen hseen => by
      have hlt := h.lt_of_seen hseen
      have hle := h.seen_le seen (List.mem_of_getElem? hseen)
      rw [hasMissed_concat, ← h.behind_iff receiver seen hseen, hchanges]
      by_cases halters : n.Alters (noticesIn acts)
      · simp [hlt, halters, Nat.lt_succ_of_le hle]
      · simp [halters] }

/-- **A new receiver** has seen all changes that there are. -/
theorem subscribe (h : w.Tracks acts) : (w.act .subscribe).Tracks (acts ++ [.subscribe]) where
  snapshot := by
    rw [noticesIn_subscribe]
    exact h.snapshot
  receivers := by simp [act, h.receivers]
  seen_le seen hseen := by
    rcases List.mem_append.mp hseen with hseen | hseen
    · exact h.seen_le seen hseen
    · exact (List.mem_singleton.mp hseen).le
  behind_iff receiver seen hseen := by
    change (w.seen ++ [w.projector.changes])[receiver]? = some seen at hseen
    have hmissed : HasMissed (acts ++ [.subscribe]) receiver ↔ HasMissed acts receiver := by
      simp [hasMissed_concat]
    rw [hmissed]
    rcases Nat.lt_or_ge receiver w.seen.length with hold | hnew
    · rw [List.getElem?_append_left hold] at hseen
      exact h.behind_iff receiver seen hseen
    · rw [List.getElem?_append_right hnew] at hseen
      obtain rfl := List.mem_singleton.mp (List.mem_of_getElem? hseen)
      -- What came before a receiver subscribed is not missed by it.
      refine iff_of_false (Nat.lt_irrefl _) fun hm => ?_
      have hlt : receiver < w.seen.length := h.receivers ▸ hm.lt
      exact Nat.not_lt.mpr hnew hlt

/-- **A receiver that looks** has seen all changes that there are, and the others have seen as much
as before. -/
theorem look (h : w.Tracks acts) (looker : Nat) :
    (w.act (.look looker)).Tracks (acts ++ [.look looker]) where
  snapshot := by
    rw [noticesIn_look]
    exact h.snapshot
  receivers := by simp [act, h.receivers]
  seen_le seen hseen := by
    rcases List.mem_or_eq_of_mem_set hseen with hseen | rfl
    · exact h.seen_le seen hseen
    · exact le_rfl
  behind_iff receiver seen hseen := by
    change (w.seen.set looker w.projector.changes)[receiver]? = some seen at hseen
    rw [hasMissed_concat]
    by_cases heq : looker = receiver
    · subst heq
      obtain ⟨hlt, hseen⟩ := List.getElem?_eq_some_iff.mp hseen
      rw [List.getElem_set_self] at hseen
      simp [← hseen, act]
    · rw [List.getElem?_set_ne heq] at hseen
      simp [heq, ← h.behind_iff receiver seen hseen, act]

/-- **One act**, whichever it is. -/
theorem act (h : w.Tracks acts) (a : Act) : (w.act a).Tracks (acts ++ [a]) := by
  cases a with
  | hear n => exact h.hear n
  | subscribe => exact h.subscribe
  | look looker => exact h.look looker

end Tracks

/-! ## 5. Any number of acts -/

theorem tracks_after (acts : List Act) : (after {} acts).Tracks acts := by
  -- The acts are taken from the right, where the newest one stands.
  induction acts using List.reverseRecOn with
  | nil => exact .nil
  | append_singleton acts a ih =>
    rw [after_concat]
    exact ih.act a

section Report

variable {w : Watch} {acts : List Act}

theorem Tracks.isSome_report?_iff (h : w.Tracks acts) (receiver : Nat) :
    (w.report? receiver).isSome = true ↔ receiver < acts.count .subscribe := by
  rw [report?, Option.isSome_map, isSome_getElem?, h.receivers]

theorem Tracks.report?_eq_true_iff (h : w.Tracks acts) (receiver : Nat) :
    w.report? receiver = some true ↔ HasMissed acts receiver := by
  have hreport : ∀ seen, w.seen[receiver]? = some seen →
      (w.projector.hasChanged seen = true ↔ HasMissed acts receiver) := by
    intro seen hseen
    have hle := h.seen_le seen (List.mem_of_getElem? hseen)
    rw [← h.behind_iff receiver seen hseen, Projector.hasChanged, decide_eq_true_eq]
    omega
  rw [report?, Option.map_eq_some_iff]
  constructor
  · rintro ⟨seen, hseen, hchanged⟩
    exact (hreport seen hseen).mp hchanged
  · intro hm
    have hlt : receiver < w.seen.length := h.receivers ▸ hm.lt
    exact ⟨_, List.getElem?_eq_getElem hlt, (hreport _ (List.getElem?_eq_getElem hlt)).mpr hm⟩

end Report

/-- **What a projector shows, and what its receivers report.**  Whatever a projector hears, and
whenever receivers subscribe and look, it shows the state and the cursor that it was told last.  All
that have subscribed report, and a receiver reports a change exactly when, after it subscribed and
after it last looked, there came a notice that altered what was shown at that moment.  A state and a
cursor do so exactly when another one is shown, and other notices never do. -/
theorem reports_after (acts : List Act) :
    let w := after {} acts
    w.projector.snapshot = .lastTold (noticesIn acts) ∧
      (∀ receiver, (w.report? receiver).isSome = true ↔ receiver < acts.count .subscribe) ∧
      (∀ receiver, w.report? receiver = some true ↔ HasMissed acts receiver) ∧
      ∀ (earlier : List Notice) (n : Notice), n.Alters earlier ↔
        (∃ s, n = .state s ∧ s ≠ (Snapshot.lastTold earlier).state) ∨
          ∃ line, n = .cursor line ∧ line ≠ (Snapshot.lastTold earlier).cursor := by
  intro w
  have h : w.Tracks acts := tracks_after acts
  exact ⟨h.snapshot, h.isSome_report?_iff, h.report?_eq_true_iff, fun _ _ => Snapshot.alters_iff⟩

/-- A run that was started and reset again is news to a receiver that has not looked; one that
looked in between, and heard a log entry and the same state again, has nothing to report. -/
example :
    let w := after {} [.subscribe, .subscribe, .hear (.state .running), .hear (.state .idle), .look 1,
      .hear (.log { kind := .info, message := "" }), .hear (.state .idle)]
    w.projector.snapshot = {} ∧ w.report? 0 = some true ∧ w.report? 1 = some false := by
  decide

/-- The projector of a runner is one that has heard all that the runner observed. -/
theorem projector_foldl_observe (capacity : Nat) (heard : List (Timestamp × Notice)) :
    (heard.foldl (fun r m => r.observe m.1 m.2) (Runner.create capacity)).projector
      = (after {} (heard.map fun m => .hear m.2)).projector := by
  suffices h : ∀ (r : Runner) (w : Watch), r.projector = w.projector →
      (heard.foldl (fun r m => r.observe m.1 m.2) r).projector
        = (w.after (heard.map fun m => .hear m.2)).projector from h _ _ rfl
  induction heard with
  | nil => exact fun _ _ h => h
  | cons m heard ih =>
    intro r w h
    refine ih (r.observe m.1 m.2) (w.act (.hear m.2)) ?_
    rw [Projector.projector_observe, h]
    rfl

end Watch

end DeviceScript
