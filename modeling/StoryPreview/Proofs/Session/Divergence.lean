import StoryPreview.Proofs.Session.Replay
/-!
A choice in a diverged session. The log loses the choices from the divergence on and the state the one
error that the divergence left; the choice is then the one on display
(`dispatch_selectChoice_of_diverged`).
-/
namespace StoryPreview

namespace Session

/-- A choice that is on offer is taken: if recording it succeeds, the story has moved by it. -/
theorem record_selectChoice_ok {s t : Session} {i : Nat} {shown : List State}
    (hd : s.divergedAt = none) (hi : i < (offered s.player).length)
    (hok : s.record (.selectChoice i) = ⟨t, .ok (), shown⟩) :
    ∃ p q passage, s.player = some p ∧ p.choose i = (q, .ok passage) ∧
      t = { s with
        player := some q, state := s.state.absorb passage q,
        log := s.log ++ [.selectChoice i] } := by
  obtain ⟨q, state, hrec, hfold⟩ := record_ok (s := s) (by rw [hok]) (.inl hd)
  rw [hok, logged_selectChoice hi] at hrec
  have hfold := hfold 0
  rw [logged_selectChoice hi, hd] at hfold
  generalize hp : s.player = player at hfold hi
  cases hfold with
  | skip hsome _ => cases hsome
  | note ha _ =>
    rcases ha with rfl | ha
    · cases hi
    · cases ha
  | choose _ hq => exact ⟨_, _, _, rfl, hq, hrec⟩

/-- The errors of a diverged session: those of its log, and in their midst the one that the divergence
left, where the refused choice stands in the log. -/
theorem Settled.errors_of_diverged {s : Session} (h : Settled s) {d : Nat}
    (hd : s.divergedAt = some d) :
    ∃ j available, s.log[d]? = some (.selectChoice j) ∧ available ≤ j ∧
      s.state.errors =
        ActionLog.errors (s.log.take d) ++
          .invalidChoice j available :: ActionLog.errors (s.log.drop d) := by
  obtain ⟨l₁, j, l₂, p, t, hlog, rfl, hl₁, hj, hl₂⟩ := h.exists_refused hd
  have h₁ : t.errors = ActionLog.errors l₁ := errors_foldLog hl₁ rfl
  have h₂ : s.state.errors =
      (t.errors ++ [.invalidChoice j p.choices.length]) ++ ActionLog.errors l₂ :=
    errors_foldLog hl₂ hd
  refine ⟨j, p.choices.length, ?_, hj, ?_⟩
  · rw [hlog, List.getElem?_append_right (Nat.le_refl _), Nat.sub_self]
    rfl
  · rw [h₂, h₁, hlog, List.take_left, List.drop_left, List.append_assoc]
    rfl

/-- After a divergence the choice on display is the one that is taken. The session is then no longer
diverged. Its log is the old one, without the choices from the divergence on and with the new one; its
transcript and events go on from the old ones; the live-update flag is the old one; and of the errors
exactly the one is gone that the divergence left. -/
theorem dispatch_selectChoice_of_diverged {s t : Session} {d i : Nat} {shown : List State}
    (h : Reached s) (hd : s.divergedAt = some d) (hi : i < s.state.choices.length)
    (hok : s.dispatch (.selectChoice i) = ⟨t, .ok (), shown⟩) :
    t.isDiverged = false ∧
      t.log =
        s.log.take d ++ (s.log.drop d).filter (fun a => !a.affectsChoice) ++ [.selectChoice i] ∧
      s.state.transcript <+: t.state.transcript ∧
      s.state.events <+: t.state.events ∧
      t.state.liveUpdate = s.state.liveUpdate ∧
      (∃ j available, s.log[d]? = some (.selectChoice j) ∧ available ≤ j ∧
        s.state.errors =
          ActionLog.errors (s.log.take d) ++
            .invalidChoice j available :: ActionLog.errors (s.log.drop d) ∧
        t.state.errors =
          ActionLog.errors (s.log.take d) ++ ActionLog.errors (s.log.drop d)) ∧
      ∃ p q passage, s.player = some p ∧ p.choose i = (q, .ok passage) ∧ t.player = some q ∧
        t.state.transcript = s.state.transcript ++ passage.entries ∧
        t.state.events = s.state.events ++ passage.events := by
  have hs : Settled s := settled_of_reached h
  rw [hs.dispatch_eq_record_resumed hd rfl] at hok
  rw [hs.choices] at hi
  obtain ⟨p, q, passage, hp, hq, ht⟩ := record_selectChoice_ok (s := s.resumed d) rfl hi hok
  obtain ⟨j, available, hj, hle, herrors⟩ := hs.errors_of_diverged hd
  have hlost : s.log.errors =
      ActionLog.errors (s.log.take d) ++ ActionLog.errors (s.log.drop d) := by
    rw [← ActionLog.errors_append, List.take_append_drop]
  subst ht
  exact ⟨rfl, rfl, List.prefix_append _ _, List.prefix_append _ _, rfl,
    ⟨j, available, hj, hle, herrors, hlost⟩, p, q, passage, hp, hq, rfl, rfl, rfl⟩

/-- The door is gone, and the reader flees instead: the error about the door goes, that of an earlier
refused choice stays. -/
theorem dispatch_selectChoice_of_strayed :
    ∃ t shown, strayed.dispatch (.selectChoice 0) = ⟨t, .ok (), shown⟩ ∧
      strayed.divergedAt = some 3 ∧ strayed.state.choices.length = 1 ∧
      t.isDiverged = false ∧
      t.log = [.start, .selectChoice 0, .recordErrors [.invalidChoice 9 2],
        .recordEvents [⟨"ping", []⟩], .toggleLiveUpdate false, .selectChoice 0] ∧
      strayed.state.transcript <+: t.state.transcript ∧
      strayed.state.errors = [.invalidChoice 9 2, .invalidChoice 1 1] ∧
      t.state.errors = [.invalidChoice 9 2] := by
  refine ⟨_, _, rfl, by decide +kernel, by decide +kernel, ?_⟩
  have h := dispatch_selectChoice_of_diverged (d := 3) (i := 0) reached_strayed
    (by decide +kernel) (by decide +kernel) rfl
  exact ⟨h.1, h.2.1.trans (by decide +kernel), h.2.2.1, by decide +kernel, by decide +kernel⟩

end Session

end StoryPreview
