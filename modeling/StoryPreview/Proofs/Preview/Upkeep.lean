import StoryPreview.Proofs.Preview.Schedule
import StoryPreview.Proofs.Session.Dispatch
import StoryPreview.Proofs.Session.Offer
/-!
A preview keeps its session settled. As long as the session lasts, every job leaves it settled, with the
story it had or the one that was loaded, and the last state that it has shown is its state
(`Settled.serve`). So it is with the session of an actor, whatever commands come (`Steady.run`).

What a load does to a settled session is said in terms of replays alone: a compiled story is replayed
under a log that begins with it or under the old one without compile errors, and a failed compile leaves
everything as it is but for the errors that it records (`Settled.takes_load`).
-/
namespace StoryPreview

namespace Session

/-! ## One job -/

/-- What jobs leave of a settled session, and what they have shown of it. -/
structure Upkeep (s t : Session) (shown : List State) : Prop where
  settled : Settled t
  story : s.hasStory = true → t.hasStory = true
  shown : shown.getLast?.getD s.state = t.state

theorem Upkeep.refl {s : Session} (h : Settled s) : Upkeep s s [] := ⟨h, id, rfl⟩

theorem Upkeep.trans {s t u : Session} {states more : List State} (h : Upkeep s t states)
    (h' : Upkeep t u more) : Upkeep s u (states ++ more) where
  settled := h'.settled
  story := h'.story ∘ h.story
  shown := by rw [List.getLast?_append, Option.getD_or, h.shown, h'.shown]

/-- A job that leaves the session in use has not failed in the story. -/
theorem done_of_active {s : Session} {t : Job} (h : (s.done t).disposed = false) :
    s.done t = (s.reply t).session ∧
      ((s.reply t).result = .ok () ∨ (s.reply t).result = .error .noStory) := by
  unfold done at *
  split at h
  · cases h
  · rename_i hno
    refine ⟨rfl, ?_⟩
    cases hr : (s.reply t).result with
    | ok u => exact .inl rfl
    | error e =>
      cases e with
      | runtime e => exact absurd hr (hno e)
      | noStory => exact .inr rfl

theorem Settled.upkeep_dispatch {s : Session} (h : Settled s) {a : Action}
    (hr : (s.dispatch a).result = .ok () ∨ (s.dispatch a).result = .error .noStory) :
    Upkeep s (s.dispatch a).session (s.dispatch a).shown := by
  cases hr with
  | inl hok =>
    refine ⟨h.dispatch hok, fun hs => ?_, (shows_dispatch s a).last hok⟩
    rwa [hasStory_of_blank (h.blank_dispatch hok)]
  | inr hno =>
    rw [(h.dispatch_noStory hno).2]
    exact .refl h

/-- A session that is about to begin with a story. -/
def about (s : Session) (p : Player) : Session :=
  { s with player := some p.fresh, log := [], state := .empty s.liveDefault, divergedAt := none }

theorem begin_eq {s : Session} (ha : s.disposed = false) (p : Player) :
    s.begin p = (s.about p).record .start := by
  rw [← begin_fresh]
  unfold Session.begin
  rw [if_neg (by simp [ha])]
  exact dispatch_eq_record ha (by simp) (.inl rfl)

/-- A session that begins with a story is what a replay of nothing but the beginning gives. -/
theorem begin_replays {s : Session} {p : Player} (ha : s.disposed = false)
    (hok : (s.begin p).result = .ok ()) :
    ({ s with player := some p, log := [.start] } : Session).rebuild =
      .ok (s.begin p).session := by
  rw [begin_eq ha] at hok ⊢
  obtain ⟨q, t, hrecord, hfold⟩ := record_ok hok (.inl rfl)
  rw [hrecord]
  exact rebuild_ok.mpr ⟨⟨q, t, none⟩, foldLog_of_folds (hfold 0), rfl⟩

/-- A story that replaces another is replayed under the log without compile errors. -/
theorem replace_replays {s : Session} {p : Player} (ha : s.disposed = false)
    (hok : (s.replace p).result = .ok ()) :
    ({ s with player := some p, log := s.log.dropCompileErrors } : Session).rebuild =
      .ok (s.replace p).session := by
  unfold Session.replace at hok ⊢
  rw [if_neg (by simp [ha])] at hok ⊢
  obtain ⟨t, hrebuild, hreplay⟩ | ⟨e, _, hreplay⟩ :=
    replay_cases (s := { s with player := some p, log := s.log.dropCompileErrors }) ha
  · rw [hreplay]
    exact hrebuild
  · rw [hreplay] at hok
    cases hok

/-- A session that is given a story does not miss one. -/
theorem result_load {s : Session} {p : Player} {restart : Bool} (ha : s.disposed = false) :
    (s.reply (.load (.ok p) restart)).result ≠ .error .noStory := by
  intro hno
  unfold reply at hno
  dsimp only at hno
  split at hno
  · rw [begin_eq ha] at hno
    cases (record_noStory hno).1
  · unfold Session.replace at hno
    rw [if_neg (by simp [ha])] at hno
    obtain ⟨t, _, hreplay⟩ | ⟨e, _, hreplay⟩ :=
      replay_cases (s := { s with player := some p, log := s.log.dropCompileErrors }) ha
    · rw [hreplay] at hno
      cases hno
    · rw [hreplay] at hno
      cases hno

/-- What the result of a compile makes of a session. A compiled story is replayed under a log of nothing
but the beginning if it `restarts` the session, and under the log so far without compile errors if not.
Of a failed compile the errors are recorded. -/
def Takes (s : Session) (restarts : Bool) (t : Session) : CompileResult → Prop
  | .ok p =>
    ({ s with
      player := some p
      log := if restarts then [.start] else s.log.dropCompileErrors } : Session).rebuild = .ok t
  | .error errors =>
    t = { s with
      state := { s.state with errors := s.state.errors ++ errors.map .ofCompileError }
      log := s.log ++ [.recordErrors (errors.map .ofCompileError)] }

theorem dispatch_recordErrors {s : Session} (ha : s.disposed = false) (errors : List ErrorInfo) :
    s.dispatch (.recordErrors errors) =
      ({ s with
        state := { s.state with errors := s.state.errors ++ errors }
        log := s.log ++ [.recordErrors errors] } : Session).changed () := by
  rw [dispatch_eq_record ha (by simp) (.inr rfl), record_of_not_moves s rfl]
  rfl

/-- A load that leaves the session in use restarts it if that is asked for or if it had no story. -/
theorem takes_load {s : Session} (ha : s.disposed = false) {result : CompileResult}
    {restart : Bool} (h : (s.done (.load result restart)).disposed = false) :
    s.Takes (restart || !s.hasStory) (s.done (.load result restart)) result := by
  obtain ⟨hdone, hr⟩ := done_of_active h
  rw [hdone]
  cases result with
  | error errors => exact congrArg Reply.session (dispatch_recordErrors ha _)
  | ok p =>
    have hok := hr.resolve_right (result_load ha)
    unfold reply at hok ⊢
    dsimp only [Takes] at hok ⊢
    cases hrestart : restart || !s.hasStory with
    | true =>
      rw [hrestart] at hok
      exact begin_replays ha hok
    | false =>
      rw [hrestart] at hok
      exact replace_replays ha hok

/-- A load restarts the session or replays its log; either way the session has shown what it is. -/
theorem Settled.upkeep_load {s : Session} (h : Settled s) {result : CompileResult} {restart : Bool}
    (ht : (s.done (.load result restart)).disposed = false) :
    Upkeep s (s.done (.load result restart)) (s.reply (.load result restart)).shown := by
  obtain ⟨hdone, hr⟩ := done_of_active ht
  cases result with
  | error errors =>
    rw [hdone]
    exact h.upkeep_dispatch hr
  | ok p =>
    have hok := hr.resolve_right (result_load h.active)
    have hrebuild : Session.rebuild _ = .ok _ := takes_load h.active ht
    have hshows : (s.reply (.load (.ok p) restart)).Shows s := by
      unfold reply
      dsimp only
      split
      · exact shows_begin s p
      · exact shows_replace s p
    refine ⟨settled_of_rebuild (by exact h.active) hrebuild, fun _ => ?_, ?_⟩
    · rw [hasStory_of_blank (blank_of_rebuild hrebuild)]
      rfl
    · rw [hdone]
      exact hshows.last hok

theorem Settled.upkeep_done {s : Session} (h : Settled s) {t : Job}
    (ht : (s.done t).disposed = false) : Upkeep s (s.done t) (s.reply t).shown := by
  cases t with
  | dispatch a call =>
    obtain ⟨hdone, hr⟩ := done_of_active ht
    rw [hdone]
    exact h.upkeep_dispatch hr
  | load result restart => exact h.upkeep_load ht
  | dispose => cases ht

/-- An action does not end a session without a story, nor does it give it one. -/
theorem Settled.done_of_storyless {s : Session} (h : Settled s) (hs : s.hasStory = false) (a : Action)
    (call : Nat) : Settled (s.done (.dispatch a call)) ∧
      (s.done (.dispatch a call)).hasStory = false := by
  have hresult := h.dispatch_of_storyless hs a
  have hdone : s.done (.dispatch a call) = (s.dispatch a).session := by
    unfold done reply
    obtain hok | hno := hresult
    · rw [hok]
    · rw [hno]
  rw [hdone]
  refine ⟨(h.upkeep_dispatch hresult).settled, ?_⟩
  obtain hok | hno := hresult
  · rw [hasStory_of_blank (h.blank_dispatch hok)]
    exact hs
  · rw [(h.dispatch_noStory hno).2]
    exact hs

/-! ## All jobs -/

theorem Settled.serve {s : Session} (h : Settled s) {ts : List Job}
    (ha : (s.serve ts).session.disposed = false) :
    Upkeep s (s.serve ts).session (s.serve ts).shown := by
  induction ts generalizing s with
  | nil => exact .refl h
  | cons t ts ih =>
    rw [serve_cons h.active] at ha ⊢
    dsimp only at ha ⊢
    cases ht : (s.done t).disposed with
    | true =>
      rw [serve_of_disposed ht] at ha
      exact absurd (ht.symm.trans ha) (by decide)
    | false =>
      have hdone := h.upkeep_done ht
      exact hdone.trans (ih hdone.settled ha)

end Session

namespace Actor

/-! ## The actor -/

/-- The session of the actor is settled, and nothing waits outside of a hold. -/
structure Steady (a : Actor) : Prop where
  tidy : a.Tidy
  settled : a.session.Settled

theorem Steady.active {a : Actor} (h : a.Steady) : a.isStopped = false := h.settled.active

theorem steady_new (liveDefault : Bool) : (new liveDefault).Steady :=
  ⟨fun _ => rfl, Session.settled_new liveDefault⟩

/-- An actor whose session has ended does nothing to it. -/
theorem session_run_of_stopped {a : Actor} (h : a.isStopped = true) (cs : List Command) :
    (a.run cs).1.session = a.session := by
  rw [(serves_run_of_stopped h [] cs).session]
  rfl

/-- Commands that leave the session in use leave the actor steady, with the story it had or another, and
what it has posted last is its state. -/
theorem Steady.run {a : Actor} (h : a.Steady) {cs : List Command}
    (ha : (a.run cs).1.isStopped = false) :
    (a.run cs).1.Steady ∧ (a.session.hasStory = true → (a.run cs).1.session.hasStory = true) ∧
      ∃ shown : List State, posts (a.run cs).2 = shown.map .updateState ∧
        shown.getLast?.getD a.session.state = (a.run cs).1.session.state := by
  obtain ⟨dropped, hserves⟩ := serves_run h.tidy cs
  have hactive : (a.run cs).1.session.disposed = false := ha
  rw [hserves.session] at hactive
  have hupkeep := h.settled.serve hactive
  rw [← hserves.session] at hupkeep
  exact ⟨⟨tidy_run h.tidy cs, hupkeep.settled⟩, hupkeep.story, _, hserves.posts, hupkeep.shown⟩

theorem Steady.isStopped_dispose {a : Actor} (h : a.Steady) :
    (a.run [.dispose]).1.isStopped = true := by
  obtain ⟨dropped, hserves⟩ := serves_run h.tidy [.dispose]
  have hserve := Session.serve_singleton h.active .dispose
  rw [isStopped, hserves.session, Command.schedule, Command.schedule, Command.jobs, List.append_nil,
    hserve]
  rfl

end Actor

end StoryPreview
