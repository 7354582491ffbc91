import StoryPreview.Proofs.Session.Replay
/-!
Forgetting compile errors. A log without its compile errors folds as the whole log does, to the state
without those errors (`foldLog_dropCompileErrors`). Only the position of a divergence may move, for a
record that is left empty leaves the log.
-/
namespace StoryPreview

/-- The state without the errors that come from compiling. -/
def State.withoutCompileErrors (s : State) : State :=
  { s with errors := s.errors.filter fun e => !e.kind.isCompile }

/-- The errors of a refused choice are kept. -/
theorem State.withoutCompileErrors_refuse (s : State) (i available : Nat) :
    ({ s with errors := s.errors ++ [.invalidChoice i available] } : State).withoutCompileErrors =
      { s.withoutCompileErrors with
        errors := s.withoutCompileErrors.errors ++ [.invalidChoice i available] } := by
  unfold withoutCompileErrors
  dsimp only
  rw [List.filter_append]
  rfl

/-- An action that is forgotten altogether brought nothing but compile errors. -/
theorem State.withoutCompileErrors_annotate_of_none (s : State) {a : Action}
    (h : ActionLog.withoutCompileErrors a = none) :
    (s.annotate a).1.withoutCompileErrors = s.withoutCompileErrors := by
  cases a with
  | recordErrors errors =>
    have hnil : errors.filter (fun e => !e.kind.isCompile) = [] := by
      simpa [ActionLog.withoutCompileErrors] using h
    unfold annotate withoutCompileErrors
    dsimp only
    rw [List.filter_append, hnil, List.append_nil]
  | _ => cases h

/-- What is left of an action brings what is left of its errors, and is otherwise like it. -/
theorem State.withoutCompileErrors_annotate_of_some (s : State) {a b : Action}
    (h : ActionLog.withoutCompileErrors a = some b) :
    (s.annotate a).1.withoutCompileErrors = (s.withoutCompileErrors.annotate b).1 := by
  cases a with
  | recordErrors errors =>
    obtain ⟨_, rfl⟩ : _ ∧ .recordErrors (errors.filter fun e => !e.kind.isCompile) = b := by
      simpa [ActionLog.withoutCompileErrors] using h
    unfold annotate withoutCompileErrors
    dsimp only
    rw [List.filter_append]
  | _ =>
    cases h
    rfl

theorem ActionLog.movesStory_of_withoutCompileErrors {a b : Action}
    (h : withoutCompileErrors a = some b) :
    b.movesStory = a.movesStory ∧ b.affectsChoice = a.affectsChoice := by
  cases a with
  | recordErrors errors =>
    obtain ⟨_, rfl⟩ : _ ∧ .recordErrors (errors.filter fun e => !e.kind.isCompile) = b := by
      simpa [withoutCompileErrors] using h
    exact ⟨rfl, rfl⟩
  | _ =>
    cases h
    exact ⟨rfl, rfl⟩

namespace Session

/-- The same replay without compile errors, diverged at `d`. -/
def Rebuilt.withoutCompileErrors (r : Rebuilt) (d : Option Nat) : Rebuilt :=
  ⟨r.player, r.state.withoutCompileErrors, d⟩

theorem Folds.withoutCompileErrors {n : Nat} {r r' : Rebuilt} {a : Action} (h : Folds n r a r')
    {d : Option Nat} (hd : d.isSome = r.divergedAt.isSome) (m : Nat) :
    ∃ d', d'.isSome = r'.divergedAt.isSome ∧
      foldLog (r.withoutCompileErrors d) m (ActionLog.withoutCompileErrors a).toList =
        .ok (r'.withoutCompileErrors d') := by
  cases h with
  | skip hdiv ha =>
    obtain ⟨i, rfl⟩ := Action.eq_selectChoice ha
    exact ⟨d, hd, foldLog_of_folds (.skip (hd.trans hdiv) rfl)⟩
  | note ha hc =>
    refine ⟨d, hd, ?_⟩
    cases hb : ActionLog.withoutCompileErrors a with
    | none =>
      rw [Rebuilt.withoutCompileErrors, Rebuilt.withoutCompileErrors,
        State.withoutCompileErrors_annotate_of_none _ hb]
      rfl
    | some b =>
      obtain ⟨hmoves, hchoice⟩ := ActionLog.movesStory_of_withoutCompileErrors hb
      rw [Rebuilt.withoutCompileErrors, Rebuilt.withoutCompileErrors,
        State.withoutCompileErrors_annotate_of_some _ hb]
      rw [← hmoves] at ha
      rw [← hd, ← hchoice] at hc
      exact foldLog_of_folds (.note ha hc)
  | start hq => exact ⟨d, hd, foldLog_of_folds (.start hq)⟩
  | choose hi hq =>
    obtain rfl : d = none := by simpa using hd
    exact ⟨none, rfl, foldLog_of_folds (.choose hi hq)⟩
  | refuse hi =>
    obtain rfl : d = none := by simpa using hd
    refine ⟨some m, rfl, ?_⟩
    rw [Rebuilt.withoutCompileErrors, Rebuilt.withoutCompileErrors,
      State.withoutCompileErrors_refuse]
    exact foldLog_of_folds (.refuse hi)

/-- A log without its compile errors folds as the whole log does. -/
theorem foldLog_dropCompileErrors {r r' : Rebuilt} {n : Nat} {log : ActionLog}
    (h : foldLog r n log = .ok r') {d : Option Nat} (hd : d.isSome = r.divergedAt.isSome) (m : Nat) :
    ∃ d', d'.isSome = r'.divergedAt.isSome ∧
      foldLog (r.withoutCompileErrors d) m log.dropCompileErrors =
        .ok (r'.withoutCompileErrors d') := by
  induction log generalizing r n d m with
  | nil =>
    cases h
    exact ⟨d, hd, rfl⟩
  | cons a log ih =>
    obtain ⟨r₁, h₁, h₂⟩ := foldLog_cons_ok.mp h
    obtain ⟨d₁, hd₁, ha⟩ := h₁.withoutCompileErrors hd m
    obtain ⟨d', hd', hlog⟩ :=
      ih h₂ hd₁ (m + (ActionLog.withoutCompileErrors a).toList.length)
    have hdrop : ActionLog.dropCompileErrors (a :: log) =
        (ActionLog.withoutCompileErrors a).toList ++ ActionLog.dropCompileErrors log := by
      unfold ActionLog.dropCompileErrors
      rw [List.filterMap_cons]
      cases ActionLog.withoutCompileErrors a <;> rfl
    rw [hdrop]
    exact ⟨d', hd', foldLog_append_ok.mpr ⟨_, ha, hlog⟩⟩

/-- What the log of a session comes to without its compile errors, on the same story. -/
theorem Settled.foldLog_dropCompileErrors {s : Session} (h : Settled s) :
    ∃ d, d.isSome = s.isDiverged ∧
      foldLog s.blank 0 s.log.dropCompileErrors =
        .ok ⟨s.player, s.state.withoutCompileErrors, d⟩ :=
  Session.foldLog_dropCompileErrors h.fold (d := none) rfl 0

end Session

end StoryPreview
