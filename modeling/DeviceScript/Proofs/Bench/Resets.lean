import DeviceScript.Proofs.Bench.Coherence
/-!
# What the audience hears of resets

A reset tells that no line is shown and then that the runner is idle.  A listener may reset the
runner itself while it is told so, and then its reset is told to everyone before the one at hand is
told to the members behind.  So members may hear the notices of several resets in different orders.
But each of them hears every reset, and the resets as wholes, one after the other or one in the
middle of another (`OfResets`).

What is told of a reset has no other bound than how deep acts may nest.  The induction is on that
(`Bench.hears_tellWithin`), and within one notice on the members that are still to be told
(`Bench.passes_tellFrom`).
-/

namespace DeviceScript

/-! ## 1. Resets in the middle of resets -/

/-- These are the notices of so many resets. -/
inductive OfResets : Nat → List Notice → Prop
  | nil : OfResets 0 []
  | append {i j : Nat} {ns ns' : List Notice} :
      OfResets i ns → OfResets j ns' → OfResets (i + j) (ns ++ ns')
  /-- A reset, with others in the middle of it. -/
  | reset {i : Nat} {ns : List Notice} :
      OfResets i ns → OfResets (i + 1) (.cursor none :: (ns ++ [.state .idle]))

theorem OfResets.eq_nil {ns : List Notice} (h : OfResets 0 ns) : ns = [] := by
  generalize hd : 0 = d at h
  induction h with
  | nil => rfl
  | append _ _ ih ih' =>
    rw [ih (by omega), ih' (by omega)]
    rfl
  | reset => omega

/-- One reset alone. -/
theorem OfResets.eq_of_one {ns : List Notice} (h : OfResets 1 ns) :
    ns = [.cursor none, .state .idle] := by
  generalize hd : 1 = d at h
  induction h with
  | nil => omega
  | @append i j _ _ h h' ih ih' =>
    obtain rfl | rfl : i = 0 ∨ j = 0 := by omega
    · rw [h.eq_nil, ih' (by omega)]
      rfl
    · rw [h'.eq_nil, ih (by omega)]
      rfl
  | @reset i _ h _ =>
    obtain rfl : i = 0 := by omega
    rw [h.eq_nil]
    rfl

/-- The notice, with so many resets in front of it and behind it. -/
def Amid (n : Notice) (d : Nat) (ns : List Notice) : Prop :=
  ∃ i j ns₁ ns₂, i + j = d ∧ OfResets i ns₁ ∧ OfResets j ns₂ ∧ ns = ns₁ ++ n :: ns₂

/-- Whether the journal says that a listener made a reset and it was done. -/
def Happening.isReset : Happening → Bool
  | acted _ .reset .done => true
  | _ => false

/-- How many resets listeners made, according to the journal `js`. -/
def resetsIn (js : List (Nat × Happening)) : Nat :=
  js.countP (·.2.isReset)

@[simp] theorem resetsIn_append (js₁ js₂ : List (Nat × Happening)) :
    resetsIn (js₁ ++ js₂) = resetsIn js₁ + resetsIn js₂ :=
  List.countP_append

namespace Bench

variable {b b' b₁ : Bench} {d d₁ : Nat} {js js₁ : List (Nat × Happening)} {n : Notice}

/-! ## 2. One notice -/

/-- While `b` becomes `b'`, every member hears of `d` resets and of nothing else. -/
structure Hears (b : Bench) (d : Nat) (js : List (Nat × Happening)) (b' : Bench) : Prop where
  size : b'.members.length = b.members.length
  journal : b'.journal = b.journal ++ js
  heard : ∀ k, k < b.members.length → OfResets d (heardBy k js)

theorem Hears.refl (b : Bench) : b.Hears 0 [] b where
  size := rfl
  journal := (List.append_nil _).symm
  heard _ _ := .nil

theorem Hears.trans (h : b.Hears d js b₁) (h₁ : b₁.Hears d₁ js₁ b') :
    b.Hears (d + d₁) (js ++ js₁) b' where
  size := h₁.size.trans h.size
  journal := by rw [h₁.journal, h.journal, List.append_assoc]
  heard k hk := by
    rw [heardBy_append]
    exact (h.heard k hk).append (h₁.heard k (h.size ▸ hk))

/-- While `b` becomes `b'`, the members from `first` on are told the notice, and every member hears
of `d` resets besides. -/
structure Passes (first : Nat) (n : Notice) (b : Bench) (d : Nat) (js : List (Nat × Happening))
    (b' : Bench) : Prop where
  size : b'.members.length = b.members.length
  journal : b'.journal = b.journal ++ js
  heard : ∀ k, k < b.members.length →
    if first ≤ k then Amid n d (heardBy k js) else OfResets d (heardBy k js)

theorem heardBy_told (k m moment : Nat) (shown : Glimpse) :
    heardBy k [(moment, .told m n shown)] = if m = k then [n] else [] := by
  by_cases h : m = k <;> simp [heardBy, heardIn, h]

/-- What a member hears while another one is told and acts, and the members behind that one are
told: the resets of a listener come before the notice for those who are still to hear it. -/
theorem amid_or_ofResets {first k d d' : Nat} {ns ns' : List Notice} (h : OfResets d ns)
    (h' : if first + 1 ≤ k then Amid n d' ns' else OfResets d' ns') :
    if first ≤ k then Amid n (d + d') ((if first = k then [n] else []) ++ (ns ++ ns'))
    else OfResets (d + d') ((if first = k then [n] else []) ++ (ns ++ ns')) := by
  rcases Nat.lt_trichotomy first k with hk | rfl | hk
  · rw [if_pos (by omega)] at h'
    rw [if_pos (by omega), if_neg (by omega)]
    obtain ⟨i, j, ns₁, ns₂, rfl, hi, hj, rfl⟩ := h'
    refine ⟨d + i, j, ns ++ ns₁, ns₂, Nat.add_assoc .., h.append hi, hj, ?_⟩
    simp only [List.nil_append, List.append_assoc]
  · rw [if_neg (by omega)] at h'
    rw [if_pos (Nat.le_refl _), if_pos rfl]
    exact ⟨0, d + d', [], ns ++ ns', Nat.zero_add _, .nil, h.append h', rfl⟩
  · rw [if_neg (by omega)] at h'
    rw [if_neg (by omega), if_neg (by omega)]
    exact h.append h'

/-- **The members from `first` on are told one after the other**, and what listeners do meanwhile
makes everyone hear of resets.  By induction on the number of the members. -/
theorem passes_tellFrom {act : Nat → List Act → Bench → Bench × Option Crash}
    (hact : ∀ m acts (b b' : Bench), act m acts b = (b', none) →
      ∃ d js, b.Hears d js b' ∧ d ≤ resetsIn js) :
    ∀ {left first : Nat} {b b' : Bench}, first + left = b.members.length →
      tellFrom act n left first b = (b', none) →
      ∃ d js, Passes first n b d js b' ∧ d ≤ resetsIn js
  | 0, first, b, b', hl, ht => by
    cases ht
    refine ⟨0, [], ⟨rfl, (List.append_nil _).symm, fun k hk => ?_⟩, Nat.zero_le _⟩
    rw [if_neg (by omega)]
    exact .nil
  | left + 1, first, b, b', hl, ht => by
    have hinform := calm_inform (n := n) (show first < b.members.length by omega)
    rw [tellFrom] at ht
    simp only at ht
    split at ht
    · cases ht
    rename_i b₂ hacted
    obtain ⟨d, js, h₂, hd⟩ := hact _ _ _ _ hacted
    have hsize : b₂.members.length = b.members.length := h₂.size.trans hinform.size
    obtain ⟨d', js', h₃, hd'⟩ := passes_tellFrom hact (by omega) ht
    refine ⟨d + d', [(b.now, .told first n b.runner.glimpse)] ++ (js ++ js'),
      ⟨h₃.size.trans hsize, ?_, fun k hk => ?_⟩, ?_⟩
    · rw [h₃.journal, h₂.journal, hinform.journal]
      simp only [List.append_assoc]
    · rw [heardBy_append, heardBy_told, heardBy_append]
      exact amid_or_ofResets (h₂.heard k (hinform.size.symm ▸ hk)) (h₃.heard k (hsize.symm ▸ hk))
    · rw [resetsIn_append, resetsIn_append]
      omega

/-! ## 3. Resets and other acts -/

/-- A way of telling by which all members are told. -/
def Spreads (tell : Notice → Bench → Bench × Option Crash) : Prop :=
  ∀ n b b', tell n b = (b', none) → ∃ d js, Passes 0 n b d js b' ∧ d ≤ resetsIn js

section Spreads

variable {tell : Notice → Bench → Bench × Option Crash} (ht : Spreads tell)
include ht

/-- Both notices of a reset. -/
theorem Spreads.reset (h : tellAll tell [.cursor none, .state .idle] b = (b', none)) :
    ∃ d js, b.Hears (d + 1) js b' ∧ d ≤ resetsIn js := by
  rw [tellAll] at h
  split at h
  · cases h
  rename_i b₁ h₁
  rw [tellAll] at h
  split at h
  · cases h
  rename_i b₂ h₂
  cases h
  obtain ⟨d₁, js₁, hp₁, hd₁⟩ := ht _ _ _ h₁
  obtain ⟨d₂, js₂, hp₂, hd₂⟩ := ht _ _ _ h₂
  refine ⟨d₁ + d₂, js₁ ++ js₂, ⟨hp₂.size.trans hp₁.size, ?_, fun k hk => ?_⟩, ?_⟩
  · rw [hp₂.journal, hp₁.journal, List.append_assoc]
  · have hcursor := hp₁.heard k hk
    have hstate := hp₂.heard k (hp₁.size.symm ▸ hk)
    rw [if_pos (Nat.zero_le k)] at hcursor hstate
    obtain ⟨i, j, ns, ns', rfl, hi, hj, he⟩ := hcursor
    obtain ⟨i', j', ms, ms', rfl, hi', hj', he'⟩ := hstate
    have hall := (hi.append (hj.append hi').reset).append hj'
    have hsum : i + (j + i' + 1) + j' = i + j + (i' + j') + 1 := by omega
    rw [hsum] at hall
    rw [heardBy_append, he, he']
    simpa only [List.append_assoc, List.cons_append, List.nil_append] using hall
  · rw [resetsIn_append]
    omega

/-- What a listener's control makes everyone hear. -/
theorem Spreads.acted {c : Control} {a : Answer} (h : b.control tell c = (b', .ok a)) (m : Nat) :
    ∃ d js, b.Hears d js (b'.note (.acted m c a)) ∧ d ≤ resetsIn js := by
  have hnote : ∀ b₁ : Bench, b₁.Hears 0 [(b₁.now, .acted m c a)] (b₁.note (.acted m c a)) :=
    fun b₁ => ⟨rfl, rfl, fun _ _ => .nil⟩
  have hstill : ∀ b₁ : Bench, b₁.members.length = b.members.length → b₁.journal = b.journal →
      ∃ d js, b.Hears d js (b₁.note (.acted m c a)) ∧ d ≤ resetsIn js := by
    intro b₁ hsize hj
    have hsame : b.Hears 0 [] b₁ := ⟨hsize, hj.trans (List.append_nil _).symm, fun _ _ => .nil⟩
    exact ⟨0, _, hsame.trans (hnote b₁), Nat.zero_le _⟩
  rcases control_cases b tell c with ⟨b₁, a₁, hc, hcalm⟩ | ⟨p, r, hr, hc⟩ | ⟨rfl, ns, hr, -⟩
  · cases h.symm.trans hc
    exact hstill b' hcalm.size (hcalm.journal.trans (List.append_nil _))
  · cases h.symm.trans hc
    exact hstill (b.withRunner r) rfl rfl
  · simp only [control, hr] at h
    split at h
    · cases h
    rename_i htold
    cases h
    rw [Runner.eq_of_resetNotices? hr] at htold
    split at htold
    · obtain ⟨d, js, hears, hd⟩ := ht.reset htold
      refine ⟨d + 1 + 0, _, hears.trans (hnote b'), ?_⟩
      rw [resetsIn_append]
      exact Nat.succ_le_succ hd
    · cases htold
      exact hstill b rfl rfl

/-- What listeners do, one act after the other.  By induction on the acts. -/
theorem Spreads.perform (m : Nat) : ∀ (acts : List Act) {b b' : Bench},
    Bench.perform tell m acts b = (b', none) → ∃ d js, b.Hears d js b' ∧ d ≤ resetsIn js
  | [], b, b', h => by
    cases h
    exact ⟨0, [], .refl b, Nat.zero_le _⟩
  | .crash c :: acts, b, b', h => by cases h
  | .control c :: acts, b, b', h => by
    rw [Bench.perform] at h
    split at h
    · cases h
    rename_i b₁ a hc
    obtain ⟨d₁, js₁, h₁, hd₁⟩ := ht.acted hc m
    obtain ⟨d₂, js₂, h₂, hd₂⟩ := perform m acts h
    refine ⟨d₁ + d₂, js₁ ++ js₂, h₁.trans h₂, ?_⟩
    rw [resetsIn_append]
    omega

end Spreads

/-- The runner hears a notice before anyone else, and that is not written down. -/
theorem passes_of_observe {d : Nat} (h : Passes 0 n (b.observe n) d js b') :
    Passes 0 n b d js b' := by
  have hm : (b.observe n).members.length = b.members.length := by rw [(observe_eq b n).2]
  refine ⟨h.size.trans hm, ?_, fun k hk => h.heard k (hm.symm ▸ hk)⟩
  rw [h.journal]
  rfl

/-- **Whatever is told without a crash reaches every member**, with whole resets around it.  By
induction on how deep acts may nest. -/
theorem spreads_tellWithin : ∀ nesting : Nat, Spreads (tellWithin nesting)
  | 0 => fun n b b' h => by
    have hsize : 0 + b.members.length = (b.observe n).members.length := by
      rw [(observe_eq b n).2, Nat.zero_add]
    obtain ⟨d, js, hp, hd⟩ := passes_tellFrom (fun _ _ b _ h => by
      cases h
      exact ⟨0, [], .refl b, Nat.zero_le _⟩) hsize h
    exact ⟨d, js, passes_of_observe hp, hd⟩
  | nesting + 1 => fun n b b' h => by
    have hsize : 0 + b.members.length = (b.observe n).members.length := by
      rw [(observe_eq b n).2, Nat.zero_add]
    obtain ⟨d, js, hp, hd⟩ := passes_tellFrom
      (fun m acts _ _ h => (spreads_tellWithin nesting).perform m acts h) hsize h
    exact ⟨d, js, passes_of_observe hp, hd⟩

theorem spreads_tell : Spreads fun n b => b.tell n :=
  fun n b => spreads_tellWithin b.nesting n b

/-! ## 4. What an operator does -/

/-- Whatever an operator does leaves the journal and what is shown as they were, but for a reset
while no run is active and the runner shows how a run ended. -/
theorem turn_control_cases (b : Bench) (c : Control) :
    (b.turn (.control c)).journal = b.journal ∧ (b.turn (.control c)).snapshot = b.snapshot ∨
      c = .reset ∧ ¬ b.IsBusy ∧ b.snapshot.state.isTerminal = true := by
  rcases control_cases b (fun n b => b.tell n) c with
    ⟨b', a, hc, hcalm⟩ | ⟨p, r, hr, hc⟩ | ⟨rfl, ns, hr, hc⟩
  · rw [turn, hc]
    exact .inl ⟨hcalm.journal.trans (List.append_nil _), hcalm.snapshot⟩
  · obtain ⟨-, -, hproj, -⟩ := Runner.start?_eq_ok hr
    rw [turn, hc]
    exact .inl ⟨rfl, congrArg Projector.snapshot hproj⟩
  · have hns := Runner.eq_of_resetNotices? hr
    split at hns
    · rename_i hterminal
      refine .inr ⟨rfl, fun hbusy => ?_, hterminal⟩
      rw [IsBusy, (Runner.resetNotices?_eq_ok hr).1] at hbusy
      cases hbusy
    · subst hns
      rw [turn, hc]
      exact .inl ⟨rfl, rfl⟩

/-- **Of all that an operator can do only a reset is heard of**, and only while no run is active and
the runner shows how a run ended. -/
theorem wrote_control {c : Control} (h : b.wrote (.control c) ≠ []) :
    c = .reset ∧ ¬ b.IsBusy ∧ b.snapshot.state.isTerminal = true := by
  refine (turn_control_cases b c).resolve_left fun hsame => h ?_
  rw [wrote, hsame.1, List.drop_length]

/-- **What everyone hears of a reset that is done**: this one, and those that listeners made
meanwhile. -/
theorem hears_reset (h : b.answer .reset = .ok .done) (hs : b.snapshot.state.isTerminal = true) :
    ∃ d, d ≤ resetsIn (b.wrote (.control .reset)) ∧ ∀ k, k < b.members.length →
      OfResets (d + 1) (heardBy k (b.wrote (.control .reset))) := by
  cases hr : b.runner.resetNotices? with
  | error e =>
    rw [answer, control, hr] at h
    cases h
  | ok ns =>
    have hns := Runner.eq_of_resetNotices? hr
    rw [show b.runner.state.isTerminal = true from hs, if_pos rfl] at hns
    subst hns
    cases hc : tellAll (fun n b => b.tell n) [.cursor none, .state .idle] b with
    | mk b' crash =>
      cases crash with
      | some c =>
        simp only [answer, control, hr, hc] at h
        cases h
      | none =>
        obtain ⟨d, js, hears, hd⟩ := spreads_tell.reset hc
        have hj : (b.turn (.control .reset)).journal = b.journal ++ js := by
          simp only [turn, control, hr, hc]
          exact hears.journal
        rw [wrote_of_journal hj]
        exact ⟨d, hd, hears.heard⟩

end Bench

end DeviceScript
