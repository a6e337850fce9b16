import DeviceScript.Proofs.Bench.Resets
import DeviceScript.Proofs.Bus.Exchange
import DeviceScript.Proofs.Wire.Run
/-!
# What a publisher broadcasts

A publisher makes one event of every cursor, state and log notice that it hears, and stamps it with
the script of the run that it heard to start last.  What it has to announce is read off the journal
(`hearings`, `announcements`), and it fires just the events that announce it, in this order
(`Bench.publishes_after`).
-/

namespace DeviceScript

/-! ## 1. Announcements -/

/-- A notice that a member heard at this moment, of this run or, without one, of a reset. -/
structure Hearing where
  run : Option Nat
  moment : Nat
  notice : Notice
  deriving Repr, DecidableEq

/-- A notice to be announced, with the script that was heard to start last. -/
structure Announcement extends Hearing where
  script : Option String
  deriving Repr, DecidableEq

/-- What this member heard according to these lines of a journal, each with the run that was followed
when it was written. -/
def hearings (member : Nat) (lines : List (Option Nat × (Nat × Happening))) : List Hearing :=
  lines.filterMap fun (run, line) => (heardIn member line).map fun n => ⟨run, line.1, n⟩

namespace Notice

/-- The start of a run is not announced by itself. -/
def isStart : Notice → Bool
  | started _ => true
  | _ => false

/-- The script that was heard to start last, after this notice. -/
def scriptAfter (script : Option String) : Notice → Option String
  | started name => name
  | _ => script

end Notice

/-- The script that was heard to start last; `script` is the one before. -/
def scriptHeard (script : Option String) (hs : List Hearing) : Option String :=
  hs.foldl (fun script h => h.notice.scriptAfter script) script

/-- What someone has to announce who has heard this; `script` is the script heard to start before. -/
def announcements : Option String → List Hearing → List Announcement
  | _, [] => []
  | script, h :: hs =>
    (if h.notice.isStart then [] else [⟨h, script⟩]) ++
      announcements (h.notice.scriptAfter script) hs

/-- The event is on the topic of the notice, and its payload reads back as what the notice says.  A
line must be a number of 64 bits for that, and the year one that timestamps reach. -/
def Event.Tells (e : Event Json) : Notice → Prop
  | .started _ => False
  | .cursor line => e.topic = "cursor_changed" ∧
      ((∀ n ∈ line, n < Json.wordBound) → payload? e = some (e.withData (CursorChanged.mk line)))
  | .state s => e.topic = "run_state_changed" ∧
      payload? e = some (e.withData (StateChanged.mk s))
  | .log entry => e.topic = "script_log" ∧
      ((∀ n ∈ entry.line, n < Json.wordBound) → Date.yearInRange e.fired.date.year = true →
        payload? e = some (e.withData (entry.stamped e.fired)))

/-- The event announces this. -/
structure Announces (e : Event Json) (a : Announcement) : Prop where
  fired : e.fired = .ofMillis a.moment
  script : e.context.script = a.script
  tells : e.Tells a.notice

/-- The events name the scripts that are announced. -/
theorem map_script_eq {es : List (Event Json)} {as : List Announcement}
    (h : List.Forall₂ Announces es as) : es.map (·.context.script) = as.map (·.script) := by
  induction h with
  | nil => rfl
  | cons ha _ ih => rw [List.map_cons, List.map_cons, ha.script, ih]

section Announcements

variable {member : Nat} {script name : Option String} {a : Announcement} {hs hs' : List Hearing}
  {lines lines' : List (Option Nat × (Nat × Happening))}

theorem hearings_append : hearings member (lines ++ lines') =
    hearings member lines ++ hearings member lines' :=
  List.filterMap_append

/-- The notices of what was heard. -/
theorem map_notice_hearings (lines : List (Option Nat × (Nat × Happening))) :
    (hearings member lines).map (·.notice) = heardBy member (lines.map (·.2)) := by
  rw [hearings, heardBy, List.map_filterMap, List.filterMap_map]
  congr 1
  funext e
  simp [Function.comp_def]

theorem scriptHeard_append :
    scriptHeard script (hs ++ hs') = scriptHeard (scriptHeard script hs) hs' :=
  List.foldl_append

theorem announcements_append : announcements script (hs ++ hs') =
    announcements script hs ++ announcements (scriptHeard script hs) hs' := by
  induction hs generalizing script with
  | nil => rfl
  | cons h hs ih =>
    rw [List.cons_append, announcements, ih, announcements, List.append_assoc]
    rfl

/-- Only what was heard is announced. -/
theorem toHearing_mem (ha : a ∈ announcements script hs) : a.toHearing ∈ hs := by
  induction hs generalizing script with
  | nil => exact absurd ha List.not_mem_nil
  | cons h hs ih =>
    rcases List.mem_append.mp ha with ha | ha
    · split at ha
      · exact absurd ha List.not_mem_nil
      · rw [List.mem_singleton.mp ha]
        exact List.mem_cons_self
    · exact List.mem_cons_of_mem _ (ih ha)

/-- An announcement is of the run of the line that it is made of. -/
theorem exists_line (ha : a ∈ announcements script (hearings member lines)) :
    ∃ e ∈ lines, e.1 = a.run := by
  obtain ⟨e, he, hheard⟩ := List.mem_filterMap.mp (toHearing_mem ha)
  obtain ⟨n, -, hn⟩ := Option.map_eq_some_iff.mp hheard
  refine ⟨e, he, ?_⟩
  rw [← hn]

/-- As long as no start is heard all announcements are about the script heard before. -/
theorem script_eq_of_started_notMem (h : ∀ other, .started other ∉ hs.map (·.notice))
    (ha : a ∈ announcements script hs) : a.script = script := by
  induction hs with
  | nil => exact absurd ha List.not_mem_nil
  | cons first hs ih =>
    have hsame : first.notice.scriptAfter script = script := by
      cases hn : first.notice with
      | started other => exact absurd (List.mem_cons.mpr (.inl hn.symm)) (h other)
      | cursor | state | log => rfl
    rw [announcements, hsame] at ha
    rcases List.mem_append.mp ha with ha | ha
    · split at ha
      · exact absurd ha List.not_mem_nil
      · rw [List.mem_singleton.mp ha]
    · exact ih (fun other hmem => h other (List.mem_cons_of_mem _ hmem)) ha

/-- Someone who hears first that a run of a script starts announces what comes as being about it. -/
theorem script_eq_of_opensWith (h : OpensWith name (hs.map (·.notice)))
    (ha : a ∈ announcements script hs) : a.script = name := by
  cases hs with
  | nil => exact absurd ha List.not_mem_nil
  | cons first hs =>
    rcases h with h | ⟨ns, h, hns⟩
    · cases h
    · obtain ⟨hfirst, rfl⟩ := List.cons.inj h
      rw [announcements, show first.notice = .started name from hfirst] at ha
      exact script_eq_of_started_notMem hns ha

end Announcements

/-! ## 2. The publisher -/

/-- The publisher `pub` has become `pub'` while its member heard what these lines say: it has fired
one event for each announcement, in this order, and nothing else. -/
structure Publishes (member : Nat) (lines : List (Option Nat × (Nat × Happening)))
    (pub pub' : Publisher) : Prop where
  events : ∃ es, pub'.bus = es.foldl Bus.fire pub.bus ∧
    List.Forall₂ Announces es (announcements pub.context.script (hearings member lines))
  script : pub'.context.script = scriptHeard pub.context.script (hearings member lines)

section Publishes

variable {member : Nat} {pub pub' pub₁ : Publisher}
  {lines lines' : List (Option Nat × (Nat × Happening))}

theorem publishes_of_unheard (h : hearings member lines = []) : Publishes member lines pub pub := by
  constructor
  · rw [h]
    exact ⟨[], rfl, .nil⟩
  · rw [h]
    rfl

theorem Publishes.trans (h : Publishes member lines pub pub₁)
    (h' : Publishes member lines' pub₁ pub') : Publishes member (lines ++ lines') pub pub' := by
  obtain ⟨⟨es, hbus, hes⟩, hscript⟩ := h
  obtain ⟨⟨es', hbus', hes'⟩, hscript'⟩ := h'
  rw [hscript] at hes' hscript'
  constructor
  · refine ⟨es ++ es', ?_, ?_⟩
    · rw [hbus', hbus, List.foldl_append]
    · rw [hearings_append, announcements_append]
      exact List.rel_append hes hes'
  · rw [hscript', hearings_append, scriptHeard_append]

/-- **The publisher hears one notice.** -/
theorem publishes_hear (pub : Publisher) (run : Option Nat) (moment : Nat) (id : String)
    (n : Notice) (shown : Glimpse) :
    Publishes member [(run, (moment, .told member n shown))] pub
      (pub.hear (.ofMillis moment) id n) := by
  have hheard : hearings member [(run, (moment, .told member n shown))] = [⟨run, moment, n⟩] := by
    simp [hearings, heardIn]
  constructor
  · rw [hheard]
    cases n with
    | started name => exact ⟨[], rfl, .nil⟩
    | cursor line =>
      refine ⟨[_], rfl, .cons ⟨rfl, rfl, rfl, fun hl => ?_⟩ .nil⟩
      exact Event.payload?_erased (CursorChanged.ofJson?_toJson hl)
    | state s =>
      refine ⟨[_], rfl, .cons ⟨rfl, rfl, rfl, ?_⟩ .nil⟩
      exact Event.payload?_erased (StateChanged.ofJson?_toJson _)
    | log entry =>
      refine ⟨[_], rfl, .cons ⟨rfl, rfl, rfl, fun hl hy => ?_⟩ .nil⟩
      exact Event.payload?_erased (Log.Event.ofJson?_toJson hl (Timestamp.isMoment_ofMillis hy))
  · rw [hheard]
    cases n <;> rfl

end Publishes

namespace Bench

variable {b b' : Bench} {k run : Nat} {pub : Publisher} {p : Plan} {turns : List Turn}
  {piece : List (Nat × Happening)}

/-- The member `k` was the publisher `pub` when the journal was `j`, and it has published what it has
heard since; `label` is the run that is followed. -/
def PublishesSince (k : Nat) (pub : Publisher) (j : List (Nat × Happening)) (label : Option Nat)
    (b : Bench) : Prop :=
  ∃ pub' js, b.members[k]? = some (.publisher pub') ∧ b.journal = j ++ js ∧
    Publishes k (js.map (label, ·)) pub pub'

variable {j : List (Nat × Happening)} {label : Option Nat}

/-- The member hears what is told to it, and nothing of what is told to others. -/
theorem PublishesSince.inform (h : PublishesSince k pub j label b) (m : Nat) (n : Notice) :
    PublishesSince k pub j label (b.inform m n).1 := by
  obtain ⟨pub', js, hk, hj, hp⟩ := h
  unfold Bench.inform
  cases hm : b.members[m]? with
  | none => exact ⟨pub', js, hk, hj, hp⟩
  | some member =>
    have hj' : b.journal ++ [(b.now, .told m n b.runner.glimpse)] =
        j ++ (js ++ [(b.now, .told m n b.runner.glimpse)]) := by
      rw [hj, List.append_assoc]
    obtain ⟨hlt, -⟩ := List.getElem?_eq_some_iff.mp hm
    by_cases hmk : m = k
    · subst hmk
      obtain rfl := Option.some.inj (hm.symm.trans hk)
      refine ⟨_, _, List.getElem?_set_self hlt, hj', ?_⟩
      rw [List.map_append]
      exact hp.trans (publishes_hear pub' label b.now _ n b.runner.glimpse)
    · refine ⟨pub', _, (List.getElem?_set_ne hmk).trans hk, hj', ?_⟩
      rw [List.map_append]
      refine hp.trans (publishes_of_unheard ?_)
      simp [hearings, heardIn, hmk]

/-- **A publisher only ever publishes what it hears.** -/
theorem lasting_publishesSince (k : Nat) (pub : Publisher) (j : List (Nat × Happening))
    (label : Option Nat) : Lasting (PublishesSince k pub j label) where
  observe {n b} h := by
    unfold PublishesSince
    rw [(observe_eq b n).2]
    exact h
  inform {m n b} h := h.inform m n
  note {h b} hh hb := by
    obtain ⟨pub', js, hk, hj, hp⟩ := hb
    refine ⟨pub', js ++ [(b.now, h)], hk, ?_, ?_⟩
    · rw [note, hj, List.append_assoc]
    · rw [List.map_append]
      refine hp.trans (publishes_of_unheard ?_)
      simp [hearings, hh k]
  runner h := h
  clock h := h
  devices h := h

/-- What a publisher fires in the course of some turns.  By induction on the turns. -/
theorem publishes_after : ∀ (turns : List Turn) {b : Bench} {pub : Publisher},
    b.members[k]? = some (.publisher pub) →
    ∃ pub', (b.after turns).members[k]? = some (.publisher pub') ∧
      Publishes k (b.chronicle turns) pub pub'
  | [], b, pub, hk => ⟨pub, hk, publishes_of_unheard rfl⟩
  | t :: turns, b, pub, hk => by
    have hnow : PublishesSince k pub b.journal t.run? b :=
      ⟨pub, [], hk, (List.append_nil _).symm, publishes_of_unheard rfl⟩
    obtain ⟨pub₁, js, hk₁, hj, h₁⟩ := (lasting_publishesSince k pub b.journal t.run?).turn hnow t
    obtain ⟨pub₂, hk₂, h₂⟩ := publishes_after turns hk₁
    refine ⟨pub₂, hk₂, ?_⟩
    rw [chronicle, wrote_of_journal hj]
    exact h₁.trans h₂

/-! ## 3. The events of a run -/

/-- A listener in front of the member `k` has crashed at the start of the run.  All that the member
hears of the run is the report of that. -/
def MissesStart (k : Nat) (piece : List (Nat × Happening)) : Prop :=
  ∃ m moment c, m < k ∧ (moment, .crashed m c) ∈ piece ∧ heardBy k piece <+: abortNotices c

theorem started_notMem_abortNotices {c : Crash} {ns : List Notice} (h : ns <+: abortNotices c)
    (name : Option String) : .started name ∉ ns := by
  intro hmem
  have hall := h.subset hmem
  simp [abortNotices] at hall

/-- **What a member hears of a run** begins with the name of the script, unless it misses the start. -/
theorem Relates.opensWith (h : b.Relates run p p.course piece b') (hk : k < b.members.length) :
    MissesStart k piece ∨ OpensWith p.script.name (heardBy k piece) := by
  obtain ⟨ms, c', ht, ⟨hall, -⟩ | ⟨⟨-, ms₀, n, m, c, rfl, hm, ⟨moment, hcrash⟩, hheard⟩, -⟩⟩ := h
  · rw [hall k hk]
    exact .inr (Plan.opensWith_of_trace ht)
  · have hopens := Plan.opensWith_of_trace ht
    rw [noticesOf_append] at hopens
    obtain ⟨report, hreport, he⟩ := hheard k hk
    have hnone := started_notMem_abortNotices hreport
    rw [he]
    split
    · rw [noticesOf_append]
      exact .inr (hopens.append (by simp) hnone)
    · rename_i hkm
      by_cases hnil : noticesOf ms₀ = []
      · refine .inl ⟨m, moment, c, Nat.lt_of_not_le hkm, hcrash, ?_⟩
        rw [he, if_neg hkm, hnil]
        exact hreport
      · exact .inr (hopens.of_append.append hnil hnone)

/-- The lines of a run are all that is heard of it. -/
theorem IsPieceOf.script_eq {l : List (Option Nat × (Nat × Happening))} {name : Option String}
    {script : Option String} {a : Announcement} (h : IsPieceOf run piece l)
    (hopens : OpensWith name (heardBy k piece)) (ha : a ∈ announcements script (hearings k l))
    (hrun : a.run = some run) : a.script = name := by
  obtain ⟨before, behind, rfl, hbefore, hbehind⟩ := h
  rw [hearings_append, hearings_append, announcements_append, announcements_append] at ha
  rcases List.mem_append.mp ha with ha | ha
  · rcases List.mem_append.mp ha with ha | ha
    · obtain ⟨e, he, hr⟩ := exists_line ha
      exact absurd (hbefore e he run (hr.trans hrun)) (Nat.lt_irrefl run)
    · refine script_eq_of_opensWith ?_ ha
      rw [map_notice_hearings, List.map_map]
      simpa [Function.comp_def] using hopens
  · obtain ⟨e, he, hr⟩ := exists_line ha
    exact absurd (hbehind e he run (hr.trans hrun)) (Nat.lt_irrefl run)

/-- Only runs that were started are heard of. -/
theorem exists_starts_of_announced {a : Announcement} {script : Option String}
    (hreach : b.IsReachable) (hnone : b.runner.progress? run = none)
    (ha : a ∈ announcements script (hearings k (b.chronicle turns))) (hrun : a.run = some run) :
    ∃ p, b.Starts turns run p := by
  rcases exists_speaks run turns hreach hnone with
    ⟨⟨before, behind, hl, hbefore, hbehind⟩, -⟩ | ⟨p, hp, -⟩
  · obtain ⟨e, he, hr⟩ := exists_line ha
    rw [hl, List.map_nil, List.append_nil] at he
    rcases List.mem_append.mp he with he | he
    · exact absurd (hbefore e he run (hr.trans hrun)) (Nat.lt_irrefl run)
    · exact absurd (hbehind e he run (hr.trans hrun)) (Nat.lt_irrefl run)
  · exact ⟨p, hp⟩

/-! ## 4. All runs and resets -/

/-- **In a turn in which no run is followed** only a reset is heard of.  If it is done, everyone hears
of it and of those that listeners made meanwhile. -/
structure HearsOfResets (b : Bench) (t : Turn) : Prop where
  only : b.wrote t ≠ [] → t = .control .reset ∧ ¬ b.IsBusy ∧ b.snapshot.state.isTerminal = true
  all : t = .control .reset → b.answer .reset = .ok .done → b.snapshot.state.isTerminal = true →
    ∃ d, d ≤ resetsIn (b.wrote t) ∧ ∀ m, m < b.members.length →
      OfResets (d + 1) (heardBy m (b.wrote t))
  alone : t = .control .reset → b.answer .reset = .ok .done → b.snapshot.state.isTerminal = true →
    resetsIn (b.wrote t) = 0 → ∀ m, m < b.members.length →
      heardBy m (b.wrote t) = [.cursor none, .state .idle]

theorem hearsOfResets {t : Turn} (ht : t.run? = none) : b.HearsOfResets t where
  only h := by
    cases t with
    | control c =>
      obtain ⟨rfl, hfree, hterminal⟩ := wrote_control h
      exact ⟨rfl, hfree, hterminal⟩
    | devices | clock => exact absurd (wrote_of_journal (List.append_nil _).symm) h
    | proceed => cases ht
  all h hdone hterminal := by
    subst h
    exact hears_reset hdone hterminal
  alone h hdone hterminal hnone m hm := by
    subst h
    obtain ⟨d, hd, hall⟩ := hears_reset hdone hterminal
    obtain rfl : d = 0 := Nat.le_zero.mp (hnone ▸ hd)
    exact (hall m hm).eq_of_one

/-- **What is broadcast of all runs and resets.**  Take any bus that can be made, anything that is done
with it while it lasts, and any audience in which the member `k` publishes on it.  On a bench on which
nothing has happened anything may happen, in any order; it is `b` then, and its journal is the
chronicle of these turns.

The publisher has fired some events, in this order, which announce one by one what it heard according
to the chronicle.  A subscription to all events that was made before the runs is told of just these,
when it asks until nothing is left, unless it is told that it missed some; and it is not told so if it
never falls behind by more than the capacity of the bus.

What is heard of a run that was started is one piece of the chronicle.  It is all that the run tells
along its course, unless a listener breaks the run off, and its announcements name the script with
which it was started.  The exception is a run that a listener in front of the publisher broke off when
it was told of the start.  The publisher hears nothing but the report of that, and announces it as
being about the script that it heard of before.

Outside of the runs only resets are heard of, those that were done, each of them as a whole. -/
theorem events_of_history {capacity : Nat} {bus : Bus} (hbus : Bus.create? capacity = .ok bus)
    {before : List Bus.Act} (hd : .drop ∉ before) {b₀ b : Bench} {logCapacity : Nat}
    {timing : Timing} {registry : Registry} {gateway : Gateway} {members : List Member}
    {nesting : Nat} {turns : List Turn} {k : Nat}
    (hk : members[k]? = some (.publisher (.ofBus ((Exchange.ofBus bus).after before).bus)))
    (hb₀ : b₀ = create logCapacity timing registry gateway members nesting)
    (hb : b = b₀.after turns) :
    let x := (Exchange.ofBus bus).after before
    let i := x.readers.length
    let announced := announcements none (hearings k (b₀.chronicle turns))
    b.journal = (b₀.chronicle turns).map (·.2) ∧ ∃ events,
      (∃ pub, b.members[k]? = some (.publisher pub) ∧ pub.bus = events.foldl Bus.fire x.bus) ∧
      List.Forall₂ Announces events announced ∧
      (∀ later, firedOn none later = events → .unsubscribe i ∉ later →
        ∃ r s, (x.after (.subscribe none :: later)).readers[i]? = some r ∧ r.place = some s ∧
          let told := r.told ++ ((x.after (.subscribe none :: later)).bus.drain s).1
          ((∀ p, p <+: later → (x.after (.subscribe none :: p)).behind i ≤ capacity) →
            ∀ n, .lagged n ∉ told) ∧
          ((∀ n, .lagged n ∉ told) → valuesOf told = events)) ∧
      (∀ run p, b₀.Starts turns run p → ∃ piece, IsPieceOf run piece (b₀.chronicle turns) ∧
        b₀.Relates run p p.course piece b ∧
        (MissesStart k piece ∨ ∀ a ∈ announced, a.run = some run → a.script = p.script.name)) ∧
      (∀ a ∈ announced, ∀ run, a.run = some run → ∃ p, b₀.Starts turns run p) ∧
      ∀ earlier t later, turns = earlier ++ t :: later → t.run? = none →
        (b₀.after earlier).HearsOfResets t := by
  intro x i announced
  have hreach₀ : b₀.IsReachable := hb₀ ▸ isReachable_create _ _ _ _ _ _
  have hnone : ∀ run, b₀.runner.progress? run = none := by
    intro run
    rw [hb₀]
    rfl
  have hk₀ : b₀.members[k]? = some (.publisher (.ofBus x.bus)) := by
    rw [hb₀]
    exact hk
  obtain ⟨hlt, -⟩ := List.getElem?_eq_some_iff.mp hk₀
  obtain ⟨pub, hpub, ⟨events, hfired, hannounced⟩, -⟩ := publishes_after turns hk₀
  have hjournal : b.journal = (b₀.chronicle turns).map (·.2) := by
    rw [hb, journal_after, hb₀]
    rfl
  refine ⟨hjournal, events, ⟨pub, hb ▸ hpub, hfired⟩, hannounced, fun later hlater hu => ?_,
    fun run p hp => ?_, fun a ha run hrun => ?_, fun earlier t later _ ht => hearsOfResets ht⟩
  · rw [← hlater]
    exact Exchange.values_of_subscription hbus hd none hu
  · obtain ⟨piece, hpiece, hrelates⟩ := hp.speaks hreach₀ (hnone run)
    refine ⟨piece, hpiece, hb ▸ hrelates, (hrelates.opensWith hlt).imp_right ?_⟩
    intro hopens a ha hrun
    exact hpiece.script_eq hopens ha hrun
  · exact exists_starts_of_announced hreach₀ (hnone run) ha hrun

/-- A bus that keeps sixteen events. -/
def wideBus : Bus :=
  ⟨16, [], .ofCapacity 16, true⟩

/-- A publisher behind a listener that crashes when it is told of the start of the script with the name
second. -/
def relays : List Member :=
  [.listener (fun _ n => if n = .started (some "second") then [.crash ⟨none⟩] else []) [],
    .publisher (.ofBus wideBus)]

/-- A bench with this audience. -/
def relaying : Bench :=
  create 10 {} (Registry.empty.register "alpha" .network fun _ => .after 5 (.replied .ok)) .registry
    relays 1

/-- A plan for a script with this name. -/
def namedPlan (name : String) : Plan :=
  ⟨⟨some name, ["alpha.home"]⟩, .continuous, {}⟩

/-- Two runs of scripts of different names. -/
def twoRuns : List Turn :=
  [.control (.start (namedPlan "first").script .continuous), .proceed 1000 0,
    .control (.start (namedPlan "second").script .continuous), .proceed 2000 1]

theorem starts_twoRuns : relaying.Starts twoRuns 1 (namedPlan "second") := by
  let t : Turn := .control (.start (namedPlan "second").script .continuous)
  refine ⟨twoRuns.take 2 ++ [t], twoRuns.drop 3, rfl, ?_⟩
  have hfree : (relaying.after (twoRuns.take 2)).runner.active = none := by decide +kernel
  have hany : (relaying.after (twoRuns.take 2)).registry.hasAny = true := by decide +kernel
  have hruns : (relaying.after (twoRuns.take 2)).runner.runs.length = 1 := by decide +kernel
  have htiming : (relaying.after (twoRuns.take 2)).timing = {} := by decide +kernel
  have hstarted : (relaying.after (twoRuns.take 2)).answer
      (.start (namedPlan "second").script .continuous) = .ok .started := by
    rw [answer_start, hfree, hany]
    rfl
  have hgoing := progress?_of_started hstarted
  rw [hruns, htiming] at hgoing
  have hturn : ∀ b : Bench, b.after [t] = b.turn t := fun _ => rfl
  rw [after_append, hturn]
  exact hgoing

/-- What the publisher has to announce of the two runs, as far as runs and scripts go. -/
theorem announced_twoRuns : (announcements none (hearings 1 (relaying.chronicle twoRuns))).map
    (fun a => (a.run, a.script)) =
      List.replicate 8 (some 0, some "first") ++ List.replicate 3 (some 1, some "first") := by
  decide +kernel

theorem exists_stale_announcement :
    ∃ a ∈ announcements none (hearings 1 (relaying.chronicle twoRuns)),
      a.run = some 1 ∧ a.script = some "first" := by
  have hmem : (some 1, some "first") ∈ (announcements none
      (hearings 1 (relaying.chronicle twoRuns))).map fun a => (a.run, a.script) := by
    rw [announced_twoRuns]
    simp
  obtain ⟨a, ha, he⟩ := List.mem_map.mp hmem
  exact ⟨a, ha, Prod.mk.inj he⟩

theorem events_of_twoRuns :
    Bus.create? 16 = .ok wideBus ∧
      ∃ (events : List (Event Json)) (pub : Publisher),
        (relaying.after twoRuns).members[1]? = some (.publisher pub) ∧
        pub.bus = events.foldl Bus.fire wideBus ∧ events.length = 11 ∧
        ∃ piece, IsPieceOf 1 piece (relaying.chronicle twoRuns) ∧ MissesStart 1 piece := by
  have hbus : Bus.create? 16 = .ok wideBus := rfl
  have hk : relays[1]? = some (.publisher (.ofBus ((Exchange.ofBus wideBus).after []).bus)) := rfl
  obtain ⟨-, events, ⟨pub, hpub, hfired⟩, hannounced, -, hruns, -⟩ := events_of_history hbus
    List.not_mem_nil hk (Eq.refl relaying) (Eq.refl (relaying.after twoRuns))
  obtain ⟨piece, hpiece, -, hmisses⟩ := hruns 1 _ starts_twoRuns
  refine ⟨hbus, events, pub, hpub, hfired, ?_, piece, hpiece, hmisses.resolve_right fun hall => ?_⟩
  · rw [hannounced.length_eq, ← List.length_map (fun a : Announcement => (a.run, a.script)),
      announced_twoRuns]
    rfl
  · obtain ⟨a, ha, hrun, hscript⟩ := exists_stale_announcement
    have hname : some "first" = some "second" := hscript.symm.trans (hall a ha hrun)
    simp at hname

/-- **Events of a run that name the script of the run before.**  A listener crashes when it is told of
the start of the second run, and the publisher behind it is not told: the report of the crash, which
it is told, it broadcasts as being about the first script. -/
theorem exists_stale_script :
    relaying.Starts twoRuns 1 (namedPlan "second") ∧
      (∃ a ∈ announcements none (hearings 1 (relaying.chronicle twoRuns)),
        a.run = some 1 ∧ a.script = some "first") ∧
      ∃ (events : List (Event Json)) (pub : Publisher),
        (relaying.after twoRuns).members[1]? = some (.publisher pub) ∧
        pub.bus = events.foldl Bus.fire wideBus ∧
        events.map (·.context.script) = List.replicate 11 (some "first") := by
  have hpub : relaying.members[1]? = some (.publisher (.ofBus wideBus)) := rfl
  obtain ⟨pub, hpub', ⟨events, hfired, hannounced⟩, -⟩ := publishes_after twoRuns hpub
  refine ⟨starts_twoRuns, exists_stale_announcement, events, pub, hpub', hfired, ?_⟩
  have hscripts := congrArg (List.map Prod.snd) announced_twoRuns
  rw [List.map_map] at hscripts
  exact (map_script_eq hannounced).trans hscripts

end Bench

end DeviceScript
