import StoryPreview.Session.Basic
/-!
The fold of a log, one action at a time. `Folds` says everything that folding one action can do, and
`foldLog_cons_ok` and `foldLog_append_ok` cut a fold where a proof needs it cut; all that follows goes
by the cases of `Folds` and unfolds neither `State.apply` nor `foldLog` again.

Once a fold has diverged it applies no choice (`foldLog_skip`), and what it does apply from there on
depends neither on the errors so far nor on where it diverged (`foldLog_of_choice_free`): it is what a
fold applies that has not diverged and meets no choice (`foldLog_of_diverged`).
-/
namespace StoryPreview

/-! ## Players -/

theorem Player.goOn_ok {p q : Player} {passage : Passage} :
    p.goOn = (q, .ok passage) ↔
      ∃ c, q = { p with cursor := c } ∧ p.story.run p.budget p.cursor = (c, .ok passage) := by
  unfold goOn
  constructor
  · intro h
    rw [Prod.mk.injEq] at h
    exact ⟨_, h.1.symm, Prod.ext rfl h.2⟩
  · rintro ⟨c, rfl, h⟩
    rw [h]

theorem Player.choose_ok {p q : Player} {i : Nat} {passage : Passage} :
    p.choose i = (q, .ok passage) ↔
      ∃ c, p.story.select p.cursor i = .ok c ∧
        ({ p with cursor := c } : Player).goOn = (q, .ok passage) := by
  unfold choose
  cases h : p.story.select p.cursor i with
  | error e => simp
  | ok c => simp

theorem Player.fresh_of_goOn {p q : Player} {result : Except RuntimeError Passage}
    (h : p.goOn = (q, result)) : q.fresh = p.fresh := by
  rw [← show p.goOn.1 = q from congrArg Prod.fst h]
  rfl

theorem Player.fresh_of_choose {p q : Player} {i : Nat} {result : Except RuntimeError Passage}
    (h : p.choose i = (q, result)) : q.fresh = p.fresh := by
  unfold Player.choose at h
  split at h
  · cases h
    rfl
  · exact (Player.fresh_of_goOn h).trans rfl

/-! ## Actions -/

/-- Whether an action moves the story. -/
def Action.movesStory : Action → Bool
  | .start | .selectChoice _ => true
  | _ => false

/-- The errors that an action itself brings along. -/
def Action.errors : Action → List ErrorInfo
  | .recordErrors errors => errors
  | _ => []

/-- All errors recorded in a log, in order. -/
def ActionLog.errors (log : ActionLog) : List ErrorInfo := log.flatMap Action.errors

@[simp] theorem ActionLog.errors_nil : ActionLog.errors [] = [] := rfl

@[simp] theorem ActionLog.errors_cons (a : Action) (log : ActionLog) :
    ActionLog.errors (a :: log) = a.errors ++ ActionLog.errors log := rfl

@[simp] theorem ActionLog.errors_append (l₁ l₂ : ActionLog) :
    ActionLog.errors (l₁ ++ l₂) = ActionLog.errors l₁ ++ ActionLog.errors l₂ :=
  List.flatMap_append

theorem Action.errors_of_affectsChoice {a : Action} (h : a.affectsChoice = true) :
    a.errors = [] := by
  cases a <;> simp_all [Action.affectsChoice, Action.errors]

theorem Action.affectsChoice_of_not_moves {a : Action} (h : a.movesStory = false) :
    a.affectsChoice = false := by
  cases a <;> simp_all [Action.movesStory, Action.affectsChoice]

theorem Action.eq_selectChoice {a : Action} (h : a.affectsChoice = true) :
    ∃ i, a = .selectChoice i := by
  cases a <;> simp_all [Action.affectsChoice]

/-- Choices carry no errors, so a log keeps its errors when it loses them. -/
theorem ActionLog.errors_filter (log : ActionLog) :
    ActionLog.errors (log.filter fun a => !a.affectsChoice) = ActionLog.errors log := by
  induction log with
  | nil => rfl
  | cons a log ih =>
    cases h : a.affectsChoice with
    | true => simp [h, ih, Action.errors_of_affectsChoice h]
    | false => simp [h, ih]

/-! ## Annotations -/

/-- Annotating never looks at the errors so far. -/
theorem State.annotate_errors (s : State) (a : Action) (es : List ErrorInfo) :
    (({ s with errors := es } : State).annotate a).1 =
      { (s.annotate a).1 with errors := es ++ a.errors } := by
  cases a <;> simp [State.annotate, Action.errors]

theorem State.errors_annotate (s : State) (a : Action) :
    (s.annotate a).1.errors = s.errors ++ a.errors := by
  cases a <;> simp [State.annotate, Action.errors]

@[simp] theorem State.transcript_annotate (s : State) (a : Action) :
    (s.annotate a).1.transcript = s.transcript := by
  cases a <;> rfl

@[simp] theorem State.choices_annotate (s : State) (a : Action) :
    (s.annotate a).1.choices = s.choices := by
  cases a <;> rfl

@[simp] theorem State.atEnd_annotate (s : State) (a : Action) :
    (s.annotate a).1.atEnd = s.atEnd := by
  cases a <;> rfl

theorem State.apply_of_not_moves (s : State) (p : Player) {a : Action}
    (h : a.movesStory = false) : s.apply p a = (p, .ok (s.annotate a)) := by
  cases a <;> simp_all [State.apply, Action.movesStory]

theorem State.annotate_ne_invalidChoice (s : State) (a : Action) :
    (s.annotate a).2 ≠ .invalidChoice := by
  cases a <;> simp [State.annotate]

/-! ## One action -/

/-- What applying an action to a state can do when the story stands at `p` and does not fail. -/
inductive State.Applies (s : State) (p : Player) : Action → Player → State → Outcome → Prop
  /-- The story begins, or begins again. -/
  | start {q passage} (hq : p.fresh.goOn = (q, .ok passage)) :
      Applies s p .start q (({ s with transcript := [] } : State).absorb passage q) .advanced
  /-- The story takes a choice that is on offer. -/
  | choose {i q passage} (hi : i < p.choices.length) (hq : p.choose i = (q, .ok passage)) :
      Applies s p (.selectChoice i) q (s.absorb passage q) .advanced
  /-- The story refuses a choice. -/
  | refuse {i} (hi : p.choices.length ≤ i) :
      Applies s p (.selectChoice i) p
        { s with errors := s.errors ++ [.invalidChoice i p.choices.length] } .invalidChoice
  /-- The action does not touch the story. -/
  | note {a} (ha : a.movesStory = false) :
      Applies s p a p (s.annotate a).1 (s.annotate a).2

theorem State.afterRun_ok {s t : State} {p : Player} {result : Except RuntimeError Passage}
    {o : Outcome} :
    s.afterRun p result = .ok (t, o) ↔
      ∃ passage, result = .ok passage ∧ t = s.absorb passage p ∧ o = .advanced := by
  cases result with
  | error e => simp [State.afterRun]
  | ok passage => simp [State.afterRun, eq_comm]

theorem State.apply_ok {s t : State} {p q : Player} {a : Action} {o : Outcome} :
    s.apply p a = (q, .ok (t, o)) ↔ s.Applies p a q t o := by
  constructor
  · intro h
    cases a with
    | start =>
      simp only [State.apply, Prod.mk.injEq] at h
      obtain ⟨passage, hr, rfl, rfl⟩ := State.afterRun_ok.mp h.2
      rw [h.1]
      exact .start (Prod.ext h.1 hr)
    | selectChoice i =>
      simp only [State.apply] at h
      split at h
      · rename_i hi
        simp only [Prod.mk.injEq, Except.ok.injEq] at h
        obtain ⟨rfl, rfl, rfl⟩ := h
        exact .refuse hi
      · rename_i hi
        simp only [Prod.mk.injEq] at h
        obtain ⟨passage, hr, rfl, rfl⟩ := State.afterRun_ok.mp h.2
        rw [h.1]
        exact .choose (Nat.lt_of_not_le hi) (Prod.ext h.1 hr)
    | _ =>
      rw [State.apply_of_not_moves _ _ rfl, Prod.mk.injEq, Except.ok.injEq] at h
      obtain ⟨rfl, h⟩ := h
      obtain rfl : _ = t := congrArg Prod.fst h
      obtain rfl : _ = o := congrArg Prod.snd h
      exact .note rfl
  · intro h
    cases h with
    | start hq => simp [State.apply, hq, State.afterRun]
    | choose hi hq => simp [State.apply, Nat.not_le.mpr hi, hq, State.afterRun]
    | refuse hi => simp [State.apply, hi]
    | note ha => rw [State.apply_of_not_moves _ _ ha]

namespace Session

/-- What folding an action of a log, at position `n`, can do to a replay. -/
inductive Folds (n : Nat) : Rebuilt → Action → Rebuilt → Prop
  /-- A choice behind the point where the replay diverged. -/
  | skip {r a} (hd : r.divergedAt.isSome = true) (ha : a.affectsChoice = true) : Folds n r a r
  /-- There is no story, or the action does not touch it. -/
  | note {r a} (ha : r.player = none ∨ a.movesStory = false)
      (hd : (r.divergedAt.isSome && a.affectsChoice) = false) :
      Folds n r a { r with state := (r.state.annotate a).1 }
  | start {s d p q passage} (hq : p.fresh.goOn = (q, .ok passage)) :
      Folds n ⟨some p, s, d⟩ .start
        ⟨some q, ({ s with transcript := [] } : State).absorb passage q, d⟩
  | choose {s p q i passage} (hi : i < p.choices.length) (hq : p.choose i = (q, .ok passage)) :
      Folds n ⟨some p, s, none⟩ (.selectChoice i) ⟨some q, s.absorb passage q, none⟩
  /-- The story refuses a choice, and the replay diverges. -/
  | refuse {s p i} (hi : p.choices.length ≤ i) :
      Folds n ⟨some p, s, none⟩ (.selectChoice i)
        ⟨some p, { s with errors := s.errors ++ [.invalidChoice i p.choices.length] }, some n⟩

/-- Folding an action that does not touch the story annotates the state. -/
theorem Folds.eq_of_not_moves {n : Nat} {r r' : Rebuilt} {a : Action} (h : Folds n r a r')
    (ha : a.movesStory = false) : r' = { r with state := (r.state.annotate a).1 } := by
  cases h with
  | skip hd hc => rw [Action.affectsChoice_of_not_moves ha] at hc; cases hc
  | note _ _ => rfl
  | start _ => cases ha
  | choose _ _ => cases ha
  | refuse _ => cases ha

theorem foldLog_cons (r : Rebuilt) (n : Nat) (a : Action) (log : ActionLog) :
    foldLog r n (a :: log) = (foldLog r n [a]).bind fun r => foldLog r (n + 1) log := by
  rw [foldLog, foldLog]
  split
  · rfl
  · split
    · rfl
    · split <;> rfl

theorem folds_of_foldLog {r r' : Rebuilt} {n : Nat} {a : Action}
    (h : foldLog r n [a] = .ok r') : Folds n r a r' := by
  obtain ⟨player, s, d⟩ := r
  simp only [foldLog] at h
  split at h
  · rename_i hskip
    simp only [Bool.and_eq_true] at hskip
    cases h
    exact .skip hskip.1 hskip.2
  · rename_i hskip
    rw [Bool.not_eq_true] at hskip
    cases player with
    | none =>
      cases h
      exact .note (.inl rfl) hskip
    | some p =>
      dsimp only at h
      split at h
      · cases h
      · rename_i q t o happ
        cases h
        cases State.apply_ok.mp happ with
        | start hq => exact .start hq
        | choose hi hq =>
          obtain rfl : d = none := by simpa [Action.affectsChoice] using hskip
          exact .choose hi hq
        | refuse hi =>
          obtain rfl : d = none := by simpa [Action.affectsChoice] using hskip
          exact .refuse hi
        | note ha =>
          rw [if_neg (State.annotate_ne_invalidChoice s a)]
          exact .note (.inr ha) hskip

theorem foldLog_of_folds {r r' : Rebuilt} {n : Nat} {a : Action} (h : Folds n r a r') :
    foldLog r n [a] = .ok r' := by
  cases h with
  | skip hd ha => simp [foldLog, hd, ha]
  | note ha hd =>
    simp only [foldLog, hd, Bool.false_eq_true, ↓reduceIte]
    split
    · rfl
    · rename_i p hp
      have ha : a.movesStory = false := by simpa [hp] using ha
      rw [State.apply_of_not_moves _ _ ha]
      simp only [State.annotate_ne_invalidChoice, ↓reduceIte, ← hp]
  | start hq => simp [foldLog, Action.affectsChoice, State.apply_ok.mpr (.start hq)]
  | choose hi hq => simp [foldLog, State.apply_ok.mpr (.choose hi hq)]
  | refuse hi => simp [foldLog, State.apply_ok.mpr (.refuse hi)]

/-- A fold goes on after an action exactly when `Folds` allows it to. -/
theorem foldLog_cons_ok {r r' : Rebuilt} {n : Nat} {a : Action} {log : ActionLog} :
    foldLog r n (a :: log) = .ok r' ↔
      ∃ r₁, Folds n r a r₁ ∧ foldLog r₁ (n + 1) log = .ok r' := by
  rw [foldLog_cons]
  constructor
  · intro h
    cases h₁ : foldLog r n [a] with
    | error e => rw [h₁] at h; cases h
    | ok r₁ =>
      rw [h₁] at h
      exact ⟨r₁, folds_of_foldLog h₁, h⟩
  · rintro ⟨r₁, h₁, h₂⟩
    rw [foldLog_of_folds h₁]
    exact h₂

theorem foldLog_append_ok {r r' : Rebuilt} {n : Nat} {l₁ l₂ : ActionLog} :
    foldLog r n (l₁ ++ l₂) = .ok r' ↔
      ∃ r₁, foldLog r n l₁ = .ok r₁ ∧ foldLog r₁ (n + l₁.length) l₂ = .ok r' := by
  induction l₁ generalizing r n with
  | nil => simp [foldLog]
  | cons a l₁ ih =>
    simp only [List.cons_append, foldLog_cons_ok, ih, List.length_cons]
    rw [Nat.add_right_comm, Nat.add_assoc]
    constructor
    · rintro ⟨r₁, h₁, r₂, h₂, h₃⟩
      exact ⟨r₂, ⟨r₁, h₁, h₂⟩, h₃⟩
    · rintro ⟨r₂, ⟨r₁, h₁, h₂⟩, h₃⟩
      exact ⟨r₁, h₁, r₂, h₂, h₃⟩

/-- What comes before a place in a log folds if the whole log does. -/
theorem exists_foldLog_take {r r' : Rebuilt} {n : Nat} {log : ActionLog}
    (h : foldLog r n log = .ok r') (m : Nat) : ∃ r₁, foldLog r n (log.take m) = .ok r₁ := by
  rw [← List.take_append_drop m log] at h
  obtain ⟨r₁, h₁, _⟩ := foldLog_append_ok.mp h
  exact ⟨r₁, h₁⟩

/-- What every action of a log preserves holds after the whole log. -/
theorem foldLog_induct {P : Rebuilt → Prop}
    (hP : ∀ {n r a r'}, P r → Folds n r a r' → P r') {r r' : Rebuilt} {n : Nat} {log : ActionLog}
    (h : foldLog r n log = .ok r') (hr : P r) : P r' := by
  induction log generalizing r n with
  | nil =>
    cases h
    exact hr
  | cons a log ih =>
    obtain ⟨r₁, h₁, h₂⟩ := foldLog_cons_ok.mp h
    exact ih h₂ (hP hr h₁)

/-! ## The story of a replay -/

/-- The choices that a story offers where it stands; none if there is no story. -/
def offered (p : Option Player) : List ChoiceView := (p.map Player.choices).getD []

/-- A replay stays on the same story, with the same budget. -/
theorem fresh_foldLog {r r' : Rebuilt} {n : Nat} {log : ActionLog}
    (h : foldLog r n log = .ok r') : r'.player.map Player.fresh = r.player.map Player.fresh := by
  refine foldLog_induct (P := fun q => q.player.map Player.fresh = r.player.map Player.fresh)
    ?_ h rfl
  intro n r₁ a r₂ h₁ h₂
  cases h₂ with
  | skip hd ha => exact h₁
  | note ha hd => exact h₁
  | start hq => rw [← h₁, Option.map_some, Player.fresh_of_goOn hq]; rfl
  | choose hi hq => rw [← h₁, Option.map_some, Player.fresh_of_choose hq]; rfl
  | refuse hi => exact h₁

/-- The choices of a state stay those that the story offers. -/
theorem choices_foldLog {r r' : Rebuilt} {n : Nat} {log : ActionLog}
    (h : foldLog r n log = .ok r') (hr : r.state.choices = offered r.player) :
    r'.state.choices = offered r'.player := by
  refine foldLog_induct (P := fun q => q.state.choices = offered q.player) ?_ h hr
  intro n r₁ a r₂ h₁ h₂
  cases h₂ with
  | skip hd ha => exact h₁
  | note ha hd => rw [State.choices_annotate, h₁]
  | start hq => rfl
  | choose hi hq => rfl
  | refuse hi => exact h₁

/-! ## Divergence -/

/-- A replay diverges at most once. -/
theorem divergedAt_foldLog {r r' : Rebuilt} {n d : Nat} {log : ActionLog}
    (h : foldLog r n log = .ok r') (hr : r.divergedAt = some d) : r'.divergedAt = some d := by
  refine foldLog_induct (P := fun q => q.divergedAt = some d) ?_ h hr
  intro n r₁ a r₂ h₁ h₂
  cases h₂ with
  | skip hd ha => exact h₁
  | note ha hd => exact h₁
  | start hq => exact h₁
  | choose hi hq => exact h₁
  | refuse hi => cases h₁

theorem divergedAt_eq_none_of_foldLog {r r' : Rebuilt} {n : Nat} {log : ActionLog}
    (h : foldLog r n log = .ok r') (hr : r'.divergedAt = none) : r.divergedAt = none := by
  cases hd : r.divergedAt with
  | none => rfl
  | some d => rw [divergedAt_foldLog h hd] at hr; cases hr

/-- A replay that diverges does so at a choice: up to there it applied everything, and there the
story offered no such choice. -/
theorem exists_refused {r r' : Rebuilt} {n d : Nat} {log : ActionLog}
    (h : foldLog r n log = .ok r') (hr : r.divergedAt = none) (hr' : r'.divergedAt = some d) :
    ∃ l₁ i l₂ p s, log = l₁ ++ .selectChoice i :: l₂ ∧ d = n + l₁.length ∧
      foldLog r n l₁ = .ok ⟨some p, s, none⟩ ∧ p.choices.length ≤ i ∧
      foldLog ⟨some p, { s with errors := s.errors ++ [.invalidChoice i p.choices.length] }, some d⟩
        (d + 1) l₂ = .ok r' := by
  induction log generalizing r n with
  | nil =>
    cases h
    rw [hr] at hr'
    cases hr'
  | cons a log ih =>
    obtain ⟨r₁, h₁, h₂⟩ := foldLog_cons_ok.mp h
    cases hd₁ : r₁.divergedAt with
    | none =>
      obtain ⟨l₁, i, l₂, p, s, rfl, rfl, hl₁, hi, hl₂⟩ := ih h₂ hd₁
      have hlen : n + (a :: l₁).length = n + 1 + l₁.length := by
        rw [List.length_cons]
        omega
      exact ⟨a :: l₁, i, l₂, p, s, rfl, hlen.symm, foldLog_cons_ok.mpr ⟨r₁, h₁, hl₁⟩, hi, hl₂⟩
    | some d₁ =>
      -- The first action is the one refused: no other sets the position.
      rw [divergedAt_foldLog h₂ hd₁] at hr'
      cases hr'
      cases h₁ with
      | skip hd ha => rw [hr] at hd; cases hd
      | note ha hd => rw [hr] at hd₁; cases hd₁
      | start hq => rw [hr] at hd₁; cases hd₁
      | choose hi hq => cases hd₁
      | @refuse s p i hi =>
        cases hd₁
        exact ⟨[], i, log, p, s, rfl, rfl, by rw [← hr]; rfl, hi, h₂⟩

/-- Once it has diverged, a replay goes as if the rest of the log had no choices. -/
theorem foldLog_skip {r r' : Rebuilt} {n : Nat} {log : ActionLog}
    (h : foldLog r n log = .ok r') (hr : r.divergedAt.isSome = true) (m : Nat) :
    foldLog r m (log.filter fun a => !a.affectsChoice) = .ok r' := by
  induction log generalizing r n m with
  | nil => exact h
  | cons a log ih =>
    obtain ⟨r₁, h₁, h₂⟩ := foldLog_cons_ok.mp h
    cases h₁ with
    | skip hd ha =>
      rw [List.filter_cons_of_neg (by simp [ha])]
      exact ih h₂ hd m
    | note ha hd =>
      have hc : a.affectsChoice = false := by simpa [hr] using hd
      rw [List.filter_cons_of_pos (by simp [hc])]
      exact foldLog_cons_ok.mpr ⟨_, .note ha hd, ih h₂ hr (m + 1)⟩
    | start hq =>
      exact foldLog_cons_ok.mpr ⟨_, .start hq, ih h₂ hr (m + 1)⟩
    | choose hi hq => cases hr
    | refuse hi => cases hr

/-! ## Errors -/

/-- As long as a replay does not diverge, its state has the errors of the log and no others. -/
theorem errors_foldLog {r r' : Rebuilt} {n : Nat} {log : ActionLog}
    (h : foldLog r n log = .ok r') (hr' : r'.divergedAt = r.divergedAt) :
    r'.state.errors = r.state.errors ++ ActionLog.errors log := by
  induction log generalizing r n with
  | nil =>
    cases h
    simp
  | cons a log ih =>
    obtain ⟨r₁, h₁, h₂⟩ := foldLog_cons_ok.mp h
    rw [ActionLog.errors_cons, ← List.append_assoc]
    cases h₁ with
    | skip hd ha => rw [Action.errors_of_affectsChoice ha, List.append_nil, ih h₂ hr']
    | note ha hd => rw [ih h₂ hr', State.errors_annotate]
    | start hq => rw [ih h₂ hr']; simp [State.absorb, Action.errors]
    | choose hi hq => rw [ih h₂ hr']; simp [State.absorb, Action.errors]
    | refuse hi =>
      rw [divergedAt_foldLog h₂ rfl] at hr'
      cases hr'

/-- Without choices the fold of a log depends neither on the errors so far nor on where the replay
has diverged nor on the positions of the actions. -/
theorem foldLog_of_choice_free {r r' : Rebuilt} {n : Nat} {log : ActionLog}
    (h : foldLog r n log = .ok r') (hl : ∀ a ∈ log, a.affectsChoice = false)
    (es : List ErrorInfo) (d : Option Nat) (m : Nat) :
    r'.divergedAt = r.divergedAt ∧
      foldLog ⟨r.player, { r.state with errors := es }, d⟩ m log =
        .ok ⟨r'.player, { r'.state with errors := es ++ ActionLog.errors log }, d⟩ := by
  induction log generalizing r n m es with
  | nil =>
    cases h
    simp [foldLog]
  | cons a log ih =>
    obtain ⟨r₁, h₁, h₂⟩ := foldLog_cons_ok.mp h
    have ha : a.affectsChoice = false := hl a List.mem_cons_self
    have hl' : ∀ a ∈ log, a.affectsChoice = false := fun a h => hl a (List.mem_cons_of_mem _ h)
    rw [ActionLog.errors_cons, ← List.append_assoc, foldLog_cons_ok]
    cases h₁ with
    | skip hd ha' => rw [ha] at ha'; cases ha'
    | note hp hd =>
      obtain ⟨hd', h'⟩ := ih h₂ hl' (es ++ a.errors) (m + 1)
      refine ⟨hd', _, .note hp (by simp [ha]), ?_⟩
      rw [State.annotate_errors]
      exact h'
    | start hq =>
      obtain ⟨hd', h'⟩ := ih h₂ hl' es (m + 1)
      refine ⟨hd', _, .start hq, ?_⟩
      simp only [Action.errors, List.append_nil]
      exact h'
    | choose hi hq => cases ha
    | refuse hi => cases ha

/-- Once it has diverged, a replay goes on as one that has not would go on without choices, whatever the
errors so far. -/
theorem foldLog_of_diverged {r r' : Rebuilt} {n : Nat} {log : ActionLog}
    (h : foldLog r n log = .ok r') (hr : r.divergedAt.isSome = true) (es : List ErrorInfo) (m : Nat) :
    foldLog ⟨r.player, { r.state with errors := es }, none⟩ m
        (log.filter fun a => !a.affectsChoice) =
      .ok ⟨r'.player, { r'.state with errors := es ++ ActionLog.errors log }, none⟩ := by
  have hfree : ∀ a ∈ log.filter (fun a => !a.affectsChoice), a.affectsChoice = false := by
    intro a ha
    simpa using (List.mem_filter.mp ha).2
  rw [← ActionLog.errors_filter]
  exact (foldLog_of_choice_free (foldLog_skip h hr m) hfree es none m).2

end Session

end StoryPreview
