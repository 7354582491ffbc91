import StoryPreview.Proofs.Session.Dispatch
import StoryPreview.Proofs.Session.Divergence
import StoryPreview.Proofs.Session.Offer
import StoryPreview.Proofs.Story.Course
/-!
Actions that fail. Nothing is recorded of an action that the story fails (`record_error`), and a rewind
replays a part of a log that has been folded before, and never fails (`Settled.exists_rewind`).

A choice in a diverged session is recorded after the divergence has been cleared away, and that is not
taken back when the story fails the choice (`dispatch_error`).
-/
namespace StoryPreview

namespace Session

/-! ## Rewinds -/

theorem Settled.exists_rewind {s : Session} (h : Settled s) : ∃ b, s.rewind.result = .ok b := by
  unfold Session.rewind
  rw [if_neg (by simp [h.active])]
  split
  · exact ⟨false, rfl⟩
  · rename_i position _
    obtain ⟨r, hr⟩ := exists_foldLog_take h.fold position
    rw [replay_of_foldLog (s := { s with log := s.log.take position }) h.active hr]
    exact ⟨true, rfl⟩

/-! ## Every action -/

/-- An action that fails is one that was to be recorded, by the session as it is or as it was where it
diverged. -/
theorem Settled.dispatch_error_cases {s : Session} (h : Settled s) {a : Action} {e : SessionError}
    (hfail : (s.dispatch a).result = .error e) :
    ((s.divergedAt = none ∨ a.affectsChoice = false) ∧ s.dispatch a = s.record a) ∨
      ∃ d, s.divergedAt = some d ∧ a.affectsChoice = true ∧
        s.dispatch a = (s.resumed d).record a := by
  have hrewind : a ≠ .rewind := by
    rintro rfl
    obtain ⟨b, hb⟩ := h.exists_rewind
    unfold Session.dispatch at hfail
    rw [if_neg (by simp [h.active]), if_pos rfl] at hfail
    simp [hb, Except.map] at hfail
  cases hd : s.divergedAt with
  | none => exact .inl ⟨.inl rfl, dispatch_eq_record h.active hrewind (.inl hd)⟩
  | some d =>
    cases hc : a.affectsChoice with
    | false => exact .inl ⟨.inr rfl, dispatch_eq_record h.active hrewind (.inr hc)⟩
    | true => exact .inr ⟨d, rfl, rfl, h.dispatch_eq_record_resumed hd hc⟩

/-- An action that fails leaves state, log and divergence as they were, unless the session has diverged
and the action is a choice. Such a choice was on display and ran out of budget, and it leaves the
session undiverged, its log without the choices from the divergence on and its state without the error
that the divergence had left. The observer is shown nothing either way. -/
theorem dispatch_error {s : Session} {a : Action} {e : SessionError} (h : Reached s)
    (hfail : (s.dispatch a).result = .error e) :
    (((s.dispatch a).session.state = s.state ∧ (s.dispatch a).session.log = s.log ∧
          (s.dispatch a).session.isDiverged = s.isDiverged) ↔
        s.isDiverged = false ∨ a.affectsChoice = false) ∧
      (∀ d, s.divergedAt = some d → a.affectsChoice = true →
        (∃ i, a = .selectChoice i ∧ i < s.state.choices.length) ∧
        (∃ p, s.player = some p ∧ e = .runtime (.stepLimit p.budget)) ∧
        (s.dispatch a).session.isDiverged = false ∧
        (s.dispatch a).session.log =
          s.log.take d ++ (s.log.drop d).filter (fun a => !a.affectsChoice) ∧
        ∃ j available, s.log[d]? = some (.selectChoice j) ∧ available ≤ j ∧
          s.state.errors =
            ActionLog.errors (s.log.take d) ++
              .invalidChoice j available :: ActionLog.errors (s.log.drop d) ∧
          (s.dispatch a).session.state = { s.state with
            errors := ActionLog.errors (s.log.take d) ++ ActionLog.errors (s.log.drop d) }) ∧
      (s.dispatch a).shown = [] := by
  have hs : Settled s := settled_of_reached h
  obtain ⟨hd, hdispatch⟩ | ⟨d, hd, hc, hdispatch⟩ := hs.dispatch_error_cases hfail
  · rw [hdispatch] at hfail ⊢
    obtain ⟨q, hrecord, _⟩ := record_error hfail
    rw [hrecord]
    refine ⟨⟨fun _ => ?_, fun _ => ⟨rfl, rfl, rfl⟩⟩, fun d hsome hc => ?_, rfl⟩
    · exact hd.imp (fun hnone => by simp [isDiverged, hnone]) id
    · rcases hd with hd | hd
      · rw [hd] at hsome
        cases hsome
      · rw [hd] at hc
        cases hc
  · rw [hdispatch] at hfail ⊢
    obtain ⟨q, hrecord, _, _, hstory⟩ := record_error hfail
    rw [hrecord]
    obtain ⟨i, rfl⟩ := Action.eq_selectChoice hc
    obtain ⟨p, hp⟩ := Option.isSome_iff_exists.mp (hs.hasStory_of_diverged hd)
    obtain ⟨hlimit, hi⟩ := hstory p hp
    have hchoices : s.state.choices = p.choices := by rw [hs.choices, hp]; rfl
    obtain ⟨j, available, hj, hle, herrors⟩ := hs.errors_of_diverged hd
    have hleft : s.log.errors =
        ActionLog.errors (s.log.take d) ++ ActionLog.errors (s.log.drop d) := by
      rw [← ActionLog.errors_append, List.take_append_drop]
    have hdiverged : s.isDiverged = true := by simp [isDiverged, hd]
    refine ⟨?_, fun d' hd' _ => ?_, rfl⟩
    · rw [hdiverged, hc]
      refine ⟨fun hsame => ?_, by simp⟩
      cases hsame.2.2
    · rw [hd] at hd'
      cases hd'
      refine ⟨⟨i, rfl, by rw [hchoices]; exact hi i rfl⟩, ⟨p, hp, hlimit⟩, rfl, rfl, j, available,
        hj, hle, herrors, ?_⟩
      rw [← hleft]
      rfl

end Session

/-! ## An example -/

/-- The roundabout without the way on. -/
def Story.ring : Story where
  nodes := #[.say none "A fork.", .branch [⟨"round", "round"⟩], .label "round", .jump "round"]
  labels := .ofList [("round", 2)]

namespace Session

/-- A reader took the way on, and an edit took it away. -/
def cutOff : Session :=
  (new true).after [.begin (.ofStory .roundabout 4), .dispatch (.selectChoice 1),
    .replace (.ofStory .ring 4)]

theorem reached_cutOff : Reached cutOff := reached_after (.new true) (by decide +kernel)

/-- The reader of the story that was cut off goes round instead. That fails, and yet the choice of the
way on and the error about it are gone. -/
theorem dispatch_error_cutOff :
    Reached cutOff ∧ cutOff.divergedAt = some 1 ∧
      (cutOff.dispatch (.selectChoice 0)).result = .error (.runtime (.stepLimit 4)) ∧
      cutOff.log = [.start, .selectChoice 1] ∧
      (cutOff.dispatch (.selectChoice 0)).session.log = [.start] ∧
      cutOff.state.errors = [.invalidChoice 1 1] ∧
      (cutOff.dispatch (.selectChoice 0)).session.state.errors = [] ∧
      (cutOff.dispatch (.selectChoice 0)).session.isDiverged = false := by
  have hfail : (cutOff.dispatch (.selectChoice 0)).result = .error (.runtime (.stepLimit 4)) := by
    decide +kernel
  obtain ⟨-, hchoice, -⟩ := dispatch_error reached_cutOff hfail
  obtain ⟨-, -, hundiverged, hlog, j, available, -, -, -, hstate⟩ := hchoice 1 (by decide +kernel) rfl
  refine ⟨reached_cutOff, by decide +kernel, hfail, by decide +kernel, ?_, by decide +kernel, ?_,
    hundiverged⟩
  · exact hlog.trans (by decide +kernel)
  · rw [hstate]
    decide +kernel

/-- So an action that fails does not always leave everything as it was. -/
theorem not_forall_dispatch_error_unchanged :
    ¬ ∀ (s : Session) (a : Action) (e : SessionError), Reached s →
      (s.dispatch a).result = .error e →
      (s.dispatch a).session.state = s.state ∧ (s.dispatch a).session.log = s.log ∧
        (s.dispatch a).session.isDiverged = s.isDiverged := by
  intro h
  have hsame := h cutOff (.selectChoice 0) (.runtime (.stepLimit 4)) reached_cutOff (by decide +kernel)
  revert hsame
  decide +kernel

end Session

end StoryPreview
