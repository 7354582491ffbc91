import StoryPreview.Proofs.Session.Dispatch
import StoryPreview.Proofs.Session.Reset
/-!
What the observer of a session sees. An operation that may change the session (`Changes`) announces the
state it leads to, and any other one leaves state and log as they are and is not shown
(`perform_of_not_changes`). So the observer is called once for each change that succeeds and for nothing
else (`observed_once`), and while operations succeed it has seen the state that the session is in
(`last_watched`).
-/
namespace StoryPreview

namespace Session

/-! ## One operation -/

/-- Whether an operation is a rewind, asked for directly or as an action. -/
def Operation.rewinds : Operation → Bool
  | .rewind | .dispatch .rewind => true
  | _ => false

/-- The operation changes the session, if it succeeds. -/
structure Changes (s : Session) (op : Operation) : Prop where
  active : s.disposed = false
  kept : op ≠ .dispose
  undoable : op.rewinds = true → s.Undoable

theorem Changes.announces {s : Session} {op : Operation} (h : s.Changes op) :
    (s.perform op).Announces := by
  cases op with
  | begin p => exact (announces_begin h.active p).map _
  | dispatch a =>
    exact (announces_dispatch h.active fun hr => h.undoable (by rw [hr]; rfl)).map _
  | rewind => exact (announces_rewind h.active (h.undoable rfl)).map _
  | replace p => exact (announces_replace h.active p).map _
  | replay => exact (announces_replay h.active).map _
  | reset => exact (announces_reset h.active).map _
  | dispose => exact absurd rfl h.kept

/-- A session that has been let go performs nothing. -/
theorem perform_of_disposed {s : Session} (ha : s.disposed = true) (op : Operation) :
    ∃ answer, (s.perform op).result = .ok answer ∧ (s.perform op).shown = [] ∧
      (s.perform op).session.state = s.state ∧ (s.perform op).session.log = s.log := by
  cases op with
  | dispose => exact ⟨_, rfl, rfl, rfl, rfl⟩
  | _ =>
    simp [perform, begin, dispatch, rewind, replace, replay, reset, ha, unchanged, Reply.map,
      Except.map]

/-- What does not change the session succeeds, and is not shown. -/
theorem perform_of_not_changes {s : Session} {op : Operation} (h : ¬ s.Changes op) :
    ∃ answer, (s.perform op).result = .ok answer ∧ (s.perform op).shown = [] ∧
      (s.perform op).session.state = s.state ∧ (s.perform op).session.log = s.log := by
  cases ha : s.disposed with
  | true => exact perform_of_disposed ha op
  | false =>
    by_cases hkept : op = .dispose
    · subst hkept
      exact ⟨_, rfl, rfl, rfl, rfl⟩
    · have hu : ¬ s.Undoable := fun hu => h ⟨ha, hkept, fun _ => hu⟩
      have hr : op.rewinds = true := by
        cases hr : op.rewinds with
        | true => rfl
        | false => exact absurd ⟨ha, hkept, fun ht => nomatch hr.symm.trans ht⟩ h
      unfold Operation.rewinds at hr
      split at hr
      · rw [perform, rewind_of_not_undoable hu]
        exact ⟨_, rfl, rfl, rfl, rfl⟩
      · rw [perform, dispatch_rewind, rewind_of_not_undoable hu]
        exact ⟨_, rfl, rfl, rfl, rfl⟩
      · cases hr

/-- The observer of a session is called at most once by an operation, and not at all if it fails. An
operation that succeeds shows the state after it if it changes the session, and otherwise shows nothing
and leaves state and log alone. -/
theorem observed_once (s : Session) (op : Operation) :
    (s.perform op).shown.length ≤ 1 ∧
      match (s.perform op).result with
      | .error _ => (s.perform op).shown = []
      | .ok _ =>
        (s.Changes op → (s.perform op).shown = [(s.perform op).session.state]) ∧
          (¬ s.Changes op → (s.perform op).shown = [] ∧
            (s.perform op).session.state = s.state ∧ (s.perform op).session.log = s.log) := by
  by_cases h : s.Changes op
  · cases hresult : (s.perform op).result with
    | error e =>
      have hshown := h.announces.of_error hresult
      exact ⟨by simp [hshown], hshown⟩
    | ok answer =>
      have hshown := h.announces.of_ok hresult
      exact ⟨by simp [hshown], fun _ => hshown, fun hn => absurd h hn⟩
  · obtain ⟨answer, hresult, hshown, hstate, hlog⟩ := perform_of_not_changes h
    rw [hresult]
    exact ⟨by simp [hshown], fun hc => absurd hc h, fun _ => ⟨hshown, hstate, hlog⟩⟩

/-! ## A run -/

/-- What the observer is shown while operations are performed, one after another. -/
def watched (s : Session) : List Operation → List State
  | [] => []
  | op :: ops => (s.perform op).shown ++ (s.perform op).session.watched ops

/-- Whoever keeps what was shown last has the state after an operation that succeeded. -/
theorem last_shown {s : Session} {op : Operation} (hok : (s.perform op).result.isOk = true) :
    (s.perform op).shown.getLast?.getD s.state = (s.perform op).session.state := by
  by_cases h : s.Changes op
  · cases hresult : (s.perform op).result with
    | error e => rw [hresult] at hok; cases hok
    | ok answer =>
      rw [h.announces.of_ok hresult]
      rfl
  · obtain ⟨_, _, hshown, hstate, _⟩ := perform_of_not_changes h
    rw [hshown, hstate]
    rfl

/-- While all operations succeed, what was shown last is the state of the session. -/
theorem last_watched {s : Session} {ops : List Operation}
    (hok : ∀ sight ∈ s.seen ops, sight.answer.isOk = true) :
    (s.watched ops).getLast?.getD s.state = (s.after ops).state := by
  induction ops generalizing s with
  | nil => rfl
  | cons op ops ih =>
    rw [seen, List.forall_mem_cons] at hok
    rw [watched, List.getLast?_append, Option.getD_or, last_shown hok.1]
    exact ih hok.2

end Session

end StoryPreview
