import StoryPreview.Proofs.Session.Undo
/-!
What the operations of a session come to, and what its observer is shown of them. A settled session
performs an action by a replay of a part of its log, or it records the action as it is or as it was where
it diverged (`Settled.dispatch_cases`). An operation that succeeds shows the state after it, once
(`Reply.Announces`), or changes nothing, and an operation that fails shows nothing (`Reply.Shows`):
whoever keeps the last state shown has the state of the session.
-/
namespace StoryPreview

namespace Session

/-! ## What is done -/

theorem hasStory_of_blank {s t : Session} (h : t.blank = s.blank) : t.hasStory = s.hasStory := by
  have hplayer : t.player.map Player.fresh = s.player.map Player.fresh :=
    congrArg Rebuilt.player h
  have hsome := congrArg Option.isSome hplayer
  rwa [Option.isSome_map, Option.isSome_map] at hsome

/-- A replay ends on the story that it began with. -/
theorem blank_of_rebuild {s t : Session} (h : s.rebuild = .ok t) : t.blank = s.blank := by
  obtain ⟨r, hfold, rfl⟩ := rebuild_ok.mp h
  have hplayer := fresh_foldLog hfold
  simp only [blank, hplayer, Option.map_map]
  rfl

/-- A session diverges only if it has a story. -/
theorem Settled.hasStory_of_diverged {s : Session} (h : Settled s) {d : Nat}
    (hd : s.divergedAt = some d) : s.hasStory = true := by
  obtain ⟨l₁, i, l₂, p, t, _, _, hfold, _⟩ := h.exists_refused hd
  have hplayer := congrArg Option.isSome (fresh_foldLog hfold)
  rw [blank, Option.isSome_map, Option.isSome_map, Option.isSome_map] at hplayer
  exact hplayer.symm

theorem dispatch_rewind (s : Session) : s.dispatch .rewind = s.rewind.map fun _ => () := by
  unfold dispatch
  split
  · rename_i ha
    unfold rewind
    rw [if_pos ha]
    rfl
  · rfl

/-- What performing an action comes to: a replay of a part of the log, or nothing, for a rewind; for any
other action it is recorded, by the session as it is or as it was where it diverged. -/
theorem Settled.dispatch_cases {s : Session} (h : Settled s) (a : Action) :
    (a = .rewind ∧ s.dispatch a = s.unchanged ()) ∨
      (a = .rewind ∧ ∃ log, s.dispatch a = ({ s with log := log } : Session).replay) ∨
      (∃ t, Settled t ∧ (t.divergedAt = none ∨ a.affectsChoice = false) ∧
        (t = s ∨ ∃ d, s.divergedAt = some d ∧ t = s.resumed d) ∧ s.dispatch a = t.record a) := by
  by_cases hr : a = .rewind
  · subst hr
    rw [dispatch_rewind]
    by_cases hundo : s.Undoable
    · obtain ⟨log, heq⟩ := rewind_of_undoable h.active hundo
      refine .inr (.inl ⟨rfl, log, ?_⟩)
      rw [heq]
      generalize ({ s with log := log } : Session).replay = r
      obtain ⟨t, result, shown⟩ := r
      cases result <;> rfl
    · exact .inl ⟨rfl, by rw [rewind_of_not_undoable hundo]; rfl⟩
  · refine .inr (.inr ?_)
    cases hd : s.divergedAt with
    | none => exact ⟨s, h, .inl hd, .inl rfl, dispatch_eq_record h.active hr (.inl hd)⟩
    | some d =>
      cases hc : a.affectsChoice with
      | false => exact ⟨s, h, .inr rfl, .inl rfl, dispatch_eq_record h.active hr (.inr hc)⟩
      | true =>
        exact ⟨s.resumed d, h.resumed hd, .inl rfl, .inr ⟨d, rfl, rfl⟩,
          h.dispatch_eq_record_resumed hd hc⟩

theorem replay_cases {s : Session} (ha : s.disposed = false) :
    (∃ t, s.rebuild = .ok t ∧ s.replay = t.changed ()) ∨
      ∃ e, s.rebuild = .error e ∧ s.replay = s.failed (.runtime e) := by
  unfold replay
  rw [if_neg (by simp [ha])]
  cases h : s.rebuild with
  | ok t => exact .inl ⟨t, rfl, rfl⟩
  | error e => exact .inr ⟨e, rfl, rfl⟩

/-- A session performs an action on the story it has. -/
theorem Settled.blank_dispatch {s : Session} (h : Settled s) {a : Action}
    (hok : (s.dispatch a).result = .ok ()) : (s.dispatch a).session.blank = s.blank := by
  obtain ⟨_, heq⟩ | ⟨_, log, heq⟩ | ⟨t, _, hd, ht, heq⟩ := h.dispatch_cases a
  · rw [heq]
    rfl
  · rw [heq] at hok ⊢
    obtain ⟨t, hrebuild, hreplay⟩ | ⟨e, _, hreplay⟩ :=
      replay_cases (s := { s with log := log }) h.active
    · rw [hreplay]
      exact (blank_of_rebuild hrebuild).trans rfl
    · rw [hreplay] at hok
      cases hok
  · rw [heq] at hok ⊢
    obtain rfl | ⟨d, _, rfl⟩ := ht
    · exact (record_frame hok hd).2.2.1
    · exact (record_frame hok hd).2.2.1

theorem record_noStory {s : Session} {a : Action} (h : (s.record a).result = .error .noStory) :
    s.hasStory = false ∧ s.record a = s.failed .noStory := by
  unfold record hasStory at *
  cases hp : s.player with
  | none =>
    rw [hp] at h
    dsimp only at h ⊢
    split at h
    · rename_i hc
      exact ⟨rfl, if_pos hc⟩
    · cases h
  | some p =>
    rw [hp] at h
    dsimp only at h
    split at h <;> cases h

/-- Only a session without a story refuses an action for that reason, and then nothing happens. -/
theorem Settled.dispatch_noStory {s : Session} (h : Settled s) {a : Action}
    (hno : (s.dispatch a).result = .error .noStory) :
    s.hasStory = false ∧ s.dispatch a = s.failed .noStory := by
  obtain ⟨_, heq⟩ | ⟨_, log, heq⟩ | ⟨t, _, _, ht, heq⟩ := h.dispatch_cases a
  · rw [heq] at hno
    cases hno
  · rw [heq] at hno
    obtain ⟨t, _, hreplay⟩ | ⟨e, _, hreplay⟩ :=
      replay_cases (s := { s with log := log }) h.active
    · rw [hreplay] at hno
      cases hno
    · rw [hreplay] at hno
      cases hno
  · rw [heq] at hno ⊢
    obtain ⟨hnone, hrecord⟩ := record_noStory hno
    obtain rfl | ⟨d, hd, rfl⟩ := ht
    · exact ⟨hnone, hrecord⟩
    · exact absurd ((h.hasStory_of_diverged hd).symm.trans hnone) (by decide)

/-! ## Without a story -/

/-- Without a story no action of a log fails. -/
theorem exists_foldLog_of_storyless {r : Rebuilt} (h : r.player = none) (n : Nat) (log : ActionLog) :
    ∃ r', foldLog r n log = .ok r' := by
  induction log generalizing r n with
  | nil => exact ⟨r, rfl⟩
  | cons a log ih =>
    unfold foldLog
    by_cases hskip : (r.divergedAt.isSome && a.affectsChoice) = true
    · rw [if_pos hskip]
      exact ih h _
    · rw [if_neg hskip, h]
      exact ih rfl _

/-- Without a story nothing is told. -/
theorem Settled.transcript_of_storyless {s : Session} (h : Settled s) (hs : s.hasStory = false) :
    s.state.transcript = [] := by
  have hplayer : s.player = none := by simpa [hasStory] using hs
  have hblank : s.blank.player = none ∧ s.blank.state.transcript = [] := by
    simp [blank, hplayer, State.empty]
  refine (foldLog_induct (P := fun r => r.player = none ∧ r.state.transcript = []) ?_ h.fold
    hblank).2
  intro n r a r' hr hfolds
  cases hfolds with
  | skip hd ha => exact hr
  | note ha hd => exact ⟨hr.1, by rw [State.transcript_annotate]; exact hr.2⟩
  | start hq => cases hr.1
  | choose hi hq => cases hr.1
  | refuse hi => cases hr.1

/-- Without a story no action fails in the story. -/
theorem Settled.dispatch_of_storyless {s : Session} (h : Settled s) (hs : s.hasStory = false)
    (a : Action) : (s.dispatch a).result = .ok () ∨ (s.dispatch a).result = .error .noStory := by
  have hplayer : s.player = none := by simpa [hasStory] using hs
  obtain ⟨_, heq⟩ | ⟨_, log, heq⟩ | ⟨t, _, _, ht, heq⟩ := h.dispatch_cases a
  · rw [heq]
    exact .inl rfl
  · rw [heq]
    obtain ⟨t, _, hreplay⟩ | ⟨e, hrebuild, _⟩ :=
      replay_cases (s := { s with log := log }) h.active
    · rw [hreplay]
      exact .inl rfl
    · obtain ⟨r, hfold⟩ := exists_foldLog_of_storyless (r := ⟨s.player.map Player.fresh,
        .empty s.liveDefault, none⟩) (by rw [hplayer]; rfl) 0 log
      unfold Session.rebuild at hrebuild
      rw [hfold] at hrebuild
      cases hrebuild
  · have hnone : t.player = none := by
      obtain rfl | ⟨d, hd, _⟩ := ht
      · exact hplayer
      · exact absurd ((h.hasStory_of_diverged hd).symm.trans hs) (by decide)
    rw [heq]
    unfold Session.record
    rw [hnone]
    dsimp only
    split
    · exact .inr rfl
    · exact .inl rfl

end Session

/-! ## What is shown -/

/-- An operation that succeeds shows the state after it, once, and one that fails shows nothing. -/
def Reply.Announces (r : Reply α) : Prop :=
  match r.result with
  | .ok _ => r.shown = [r.session.state]
  | .error _ => r.shown = []

theorem Reply.Announces.of_ok {r : Reply α} (h : r.Announces) {a : α} (hok : r.result = .ok a) :
    r.shown = [r.session.state] := by
  unfold Announces at h
  rwa [hok] at h

theorem Reply.Announces.of_error {r : Reply α} (h : r.Announces) {e : SessionError}
    (herror : r.result = .error e) : r.shown = [] := by
  unfold Announces at h
  rwa [herror] at h

theorem Reply.Announces.map {r : Reply α} (h : r.Announces) (f : α → β) : (r.map f).Announces := by
  unfold Announces Reply.map
  cases hr : r.result with
  | ok a => exact h.of_ok hr
  | error e => exact h.of_error hr

/-- What an operation on a session shows of itself. -/
def Reply.Shows (s : Session) (r : Reply α) : Prop :=
  match r.result with
  | .ok _ => r.shown = [r.session.state] ∨ (r.session = s ∧ r.shown = [])
  | .error _ => r.shown = []

theorem Reply.Announces.shows {r : Reply α} (h : r.Announces) (s : Session) : r.Shows s := by
  unfold Shows
  cases hr : r.result with
  | ok a => exact .inl (h.of_ok hr)
  | error e => exact h.of_error hr

theorem Reply.Shows.map {s : Session} {r : Reply α} (h : r.Shows s) (f : α → β) :
    (r.map f).Shows s := by
  unfold Shows Reply.map at *
  cases hr : r.result with
  | ok a => rwa [hr] at h
  | error e => rwa [hr] at h

/-- The last state shown is the state after the operation, unless the operation failed. -/
theorem Reply.Shows.last {s : Session} {r : Reply α} (h : r.Shows s) {a : α}
    (hok : r.result = .ok a) : r.shown.getLast?.getD s.state = r.session.state := by
  unfold Shows at h
  rw [hok] at h
  obtain h | ⟨hs, h⟩ := h
  · rw [h]
    rfl
  · rw [h, hs]
    rfl

namespace Session

theorem shows_unchanged (s : Session) (a : α) : (s.unchanged a).Shows s := .inr ⟨rfl, rfl⟩

theorem announces_changed (s : Session) (a : α) : (s.changed a).Announces := rfl

theorem announces_failed (s : Session) (e : SessionError) : (s.failed e : Reply α).Announces := rfl

theorem announces_record (s : Session) (a : Action) : (s.record a).Announces := by
  unfold record
  split
  · split
    · exact announces_failed s _
    · exact announces_changed _ _
  · split
    · exact announces_failed _ _
    · exact announces_changed _ _

theorem announces_replay {s : Session} (ha : s.disposed = false) : s.replay.Announces := by
  obtain ⟨t, _, heq⟩ | ⟨e, _, heq⟩ := replay_cases ha
  · rw [heq]
    exact announces_changed t _
  · rw [heq]
    exact announces_failed s _

theorem announces_rewind {s : Session} (ha : s.disposed = false) (h : s.Undoable) :
    s.rewind.Announces := by
  obtain ⟨log, heq⟩ := rewind_of_undoable ha h
  rw [heq]
  exact (announces_replay (s := { s with log := log }) ha).map _

/-- The replay that clears a divergence away is not shown, only the choice that is recorded after it. -/
theorem announces_dispatch {s : Session} (ha : s.disposed = false) {a : Action}
    (hundo : a = .rewind → s.Undoable) : (s.dispatch a).Announces := by
  by_cases hr : a = .rewind
  · rw [hr, dispatch_rewind]
    exact (announces_rewind ha (hundo hr)).map _
  · unfold dispatch
    rw [if_neg (by simp [ha]), if_neg hr]
    split
    · dsimp only
      split
      · exact announces_record _ a
      · exact announces_failed _ _
    · exact announces_record s a

theorem announces_begin {s : Session} (ha : s.disposed = false) (p : Player) :
    (s.begin p).Announces := by
  unfold begin
  rw [if_neg (by simp [ha])]
  exact announces_dispatch (by exact ha) nofun

theorem announces_replace {s : Session} (ha : s.disposed = false) (p : Player) :
    (s.replace p).Announces := by
  unfold replace
  rw [if_neg (by simp [ha])]
  exact announces_replay ha

theorem announces_reset {s : Session} (ha : s.disposed = false) : s.reset.Announces := by
  unfold reset
  rw [if_neg (by simp [ha])]
  exact announces_changed _ _

/-- A session that has been let go shows nothing and changes nothing. -/
theorem shows_of_announces {s : Session} {r : Reply α} {a : α}
    (hgone : s.disposed = true → r = s.unchanged a) (h : s.disposed = false → r.Announces) :
    r.Shows s := by
  cases ha : s.disposed with
  | true =>
    rw [hgone ha]
    exact shows_unchanged s a
  | false => exact (h ha).shows s

theorem shows_replay (s : Session) : s.replay.Shows s :=
  shows_of_announces (fun ha => if_pos ha) announces_replay

theorem shows_rewind (s : Session) : s.rewind.Shows s := by
  by_cases hundo : s.Undoable
  · exact shows_of_announces (fun ha => if_pos ha) fun ha => announces_rewind ha hundo
  · rw [rewind_of_not_undoable hundo]
    exact shows_unchanged s _

theorem shows_dispatch (s : Session) (a : Action) : (s.dispatch a).Shows s := by
  by_cases hr : a = .rewind
  · rw [hr, dispatch_rewind]
    exact (shows_rewind s).map _
  · exact shows_of_announces (fun ha => if_pos ha) fun ha =>
      announces_dispatch ha fun h => absurd h hr

theorem shows_begin (s : Session) (p : Player) : (s.begin p).Shows s :=
  shows_of_announces (fun ha => if_pos ha) fun ha => announces_begin ha p

theorem shows_replace (s : Session) (p : Player) : (s.replace p).Shows s :=
  shows_of_announces (fun ha => if_pos ha) fun ha => announces_replace ha p

theorem shows_reset (s : Session) : s.reset.Shows s :=
  shows_of_announces (fun ha => if_pos ha) announces_reset

end Session

end StoryPreview
