import StoryPreview.Proofs.Session.Replay
/-!
Rewinding undoes a choice. What stands behind the choice in the log, its annotations, restarts and
refused choices, goes with it, and the log that is left replays to the session before the choice
(`rewind_of_quietly`). A rewind says whether there was a choice to undo (`rewind_answer`), and without
one it changes nothing (`rewind_of_not_undoable`).
-/
namespace StoryPreview

namespace ActionLog

theorem lastChoice_of_choice_free {log : ActionLog} (h : ∀ a ∈ log, a.affectsChoice = false) :
    lastChoice log = none := by
  induction log with
  | nil => rfl
  | cons a log ih =>
    rw [lastChoice, ih fun b hb => h b (List.mem_cons_of_mem _ hb)]
    simp [h a List.mem_cons_self]

theorem lastChoice_eq_none_iff {log : ActionLog} :
    lastChoice log = none ↔ ∀ a ∈ log, a.affectsChoice = false := by
  refine ⟨fun h => ?_, lastChoice_of_choice_free⟩
  induction log with
  | nil => nofun
  | cons a log ih =>
    rw [lastChoice] at h
    cases hlog : lastChoice log with
    | some i => rw [hlog] at h; cases h
    | none =>
      rw [hlog] at h
      intro b hb
      rcases List.mem_cons.mp hb with rfl | hb
      · simpa using h
      · exact ih hlog b hb

/-- Behind the last choice there is none. -/
theorem lastChoice_append_cons (l₁ : ActionLog) {a : Action} {l₂ : ActionLog}
    (ha : a.affectsChoice = true) (h : ∀ a ∈ l₂, a.affectsChoice = false) :
    lastChoice (l₁ ++ a :: l₂) = some l₁.length := by
  induction l₁ with
  | nil => simp [lastChoice, lastChoice_of_choice_free h, ha]
  | cons b l₁ ih => rw [List.cons_append, lastChoice, ih, List.length_cons]

end ActionLog

namespace Session

/-- What dispatches lead to that all succeed, none of which takes a choice or takes one back. A story
takes a choice exactly if it offers one of that index. -/
inductive Quietly (s : Session) : Session → Prop
  | refl : Quietly s s
  | dispatch {t a} (h : Quietly s t) (hr : a ≠ .rewind)
      (hc : ∀ i, a = .selectChoice i → (offered t.player).length ≤ i)
      (hok : (t.dispatch a).result = .ok ()) : Quietly s (t.dispatch a).session

/-- What recording an action leaves in place. -/
theorem record_frame {s : Session} {a : Action} (hok : (s.record a).result = .ok ())
    (hd : s.divergedAt = none ∨ a.affectsChoice = false) :
    (s.record a).session.disposed = s.disposed ∧
      (s.record a).session.divergedAt = s.divergedAt ∧
      (s.record a).session.blank = s.blank ∧
      (s.record a).session.log = s.log ++ [logged s.player a] := by
  obtain ⟨q, t, hrec, hfold⟩ := record_ok hok hd
  have hq : q.map Player.fresh = s.player.map Player.fresh :=
    fresh_foldLog (foldLog_of_folds (hfold 0))
  rw [hrec]
  exact ⟨rfl, rfl, by simp only [blank, hq], rfl⟩

/-- A choice that is not on offer is not logged as one. -/
theorem affectsChoice_logged {p : Option Player} {a : Action}
    (hc : ∀ i, a = .selectChoice i → (offered p).length ≤ i) :
    (logged p a).affectsChoice = false := by
  cases a with
  | selectChoice i =>
    rw [logged, if_pos (hc i rfl)]
    rfl
  | _ => rfl

/-- Quiet dispatches only add actions to the log, and no choices. -/
theorem Quietly.frame {s t : Session} (h : Quietly s t) (ha : s.disposed = false)
    (hd : s.divergedAt = none) :
    t.disposed = false ∧ t.divergedAt = none ∧ t.blank = s.blank ∧
      ∃ l, t.log = s.log ++ l ∧ ∀ a ∈ l, a.affectsChoice = false := by
  induction h with
  | refl => exact ⟨ha, hd, rfl, [], by simp, by simp⟩
  | @dispatch t a _ hr hc hok ih =>
    obtain ⟨hta, htd, hblank, l, hlog, hl⟩ := ih
    rw [dispatch_eq_record hta hr (.inl htd)] at hok ⊢
    obtain ⟨ha', hd', hblank', hlog'⟩ := record_frame hok (.inl htd)
    refine ⟨ha'.trans hta, hd'.trans htd, hblank'.trans hblank, l ++ [logged t.player a], ?_, ?_⟩
    · rw [hlog', hlog, List.append_assoc]
    · intro b hb
      rcases List.mem_append.mp hb with hb | hb
      · exact hl b hb
      · rw [List.mem_singleton.mp hb]
        exact affectsChoice_logged hc

/-- A session rewinds to the one before its last choice, if it is active and undiverged, on the same
story, and has logged since what is no choice. -/
theorem Settled.rewind_eq {s u : Session} (h : Settled s) {i : Nat} {l : ActionLog}
    (ha : u.disposed = false) (hd : u.divergedAt = none) (hblank : u.blank = s.blank)
    (hlog : u.log = s.log ++ .selectChoice i :: l) (hl : ∀ a ∈ l, a.affectsChoice = false) :
    u.rewind.result = .ok true ∧
      u.rewind.session =
        { u with
          player := s.player, log := s.log, state := s.state, divergedAt := s.divergedAt } := by
  have hlast : u.log.lastChoiceBefore (u.divergedAt.getD u.log.length) = some s.log.length := by
    rw [hd, Option.getD_none, ActionLog.lastChoiceBefore, List.take_length, hlog]
    exact ActionLog.lastChoice_append_cons s.log rfl hl
  have htake : u.log.take s.log.length = s.log := by rw [hlog, List.take_left]
  have hfold : foldLog u.blank 0 s.log = .ok ⟨s.player, s.state, s.divergedAt⟩ := by
    rw [hblank]
    exact h.fold
  unfold Session.rewind
  rw [if_neg (by simp [ha]), hlast]
  dsimp only
  rw [htake, replay_of_foldLog (s := { u with log := s.log }) ha hfold]
  exact ⟨rfl, rfl⟩

/-- Rewinding undoes a choice exactly: after a choice that was on offer, and whatever was dispatched
since without taking another choice or taking it back, a rewind restores the log, the state and the
absence of a divergence from before the choice. -/
theorem rewind_of_quietly {s u : Session} {i : Nat} (h : Reached s) (hd : s.isDiverged = false)
    (hi : i < s.state.choices.length) (hok : (s.dispatch (.selectChoice i)).result = .ok ())
    (hu : Quietly (s.dispatch (.selectChoice i)).session u) :
    u.rewind.result = .ok true ∧
      u.rewind.session.log = s.log ∧
      u.rewind.session.state = s.state ∧
      u.rewind.session.isDiverged = s.isDiverged := by
  have hs : Settled s := settled_of_reached h
  have hdn : s.divergedAt = none := by simpa [isDiverged] using hd
  rw [hs.choices] at hi
  rw [dispatch_eq_record hs.active (by simp) (.inl hdn)] at hok hu
  obtain ⟨hactive, hdiv, hblank, hlog⟩ := record_frame hok (.inl hdn)
  rw [logged_selectChoice hi] at hlog
  obtain ⟨hua, hud, hublank, l, hulog, hl⟩ :=
    hu.frame (hactive.trans hs.active) (hdiv.trans hdn)
  have hulog' : u.log = s.log ++ .selectChoice i :: l := by
    rw [hulog, hlog, List.append_assoc, List.singleton_append]
  obtain ⟨hres, hsess⟩ := hs.rewind_eq hua hud (hublank.trans hblank) hulog' hl
  rw [hsess]
  exact ⟨hres, rfl, rfl, rfl⟩

/-- A reader in the hall. -/
def inHall : Session := (new true).after [.begin .openHall, .dispatch (.selectChoice 0)]

/-- The reader opened the door, noted something, tried a choice that is not there, and began again. -/
def pastDoor : Session :=
  (inHall.dispatch (.selectChoice 1)).session.after
    [.dispatch (.recordEvents [⟨"ping", []⟩]), .dispatch (.selectChoice 4), .dispatch .start]

theorem quietly_pastDoor : Quietly (inHall.dispatch (.selectChoice 1)).session pastDoor := by
  refine .dispatch (.dispatch (.dispatch .refl ?_ ?_ rfl) ?_ ?_ rfl) ?_ ?_ rfl
  any_goals decide
  all_goals intro i hi
  · cases hi
  · cases hi
    decide +kernel
  · cases hi

/-- The rewind leads back into the hall. -/
theorem rewind_of_quietly_pastDoor :
    (inHall.dispatch (.selectChoice 1)).result = .ok () ∧ pastDoor.log.length = 6 ∧
      pastDoor.rewind.result = .ok true ∧
      pastDoor.rewind.session.log = inHall.log ∧
      pastDoor.rewind.session.state = inHall.state ∧
      pastDoor.rewind.session.isDiverged = inHall.isDiverged :=
  ⟨rfl, by decide +kernel,
    rewind_of_quietly (i := 1) (reached_after (.new true) (by decide +kernel)) rfl
      (by decide +kernel) rfl quietly_pastDoor⟩

/-! ## Choices left to undo -/

/-- There is a choice left to undo: one that was applied, and so stands in the log before the point where
the session diverged. -/
def Undoable (s : Session) : Prop :=
  ∃ n i, s.log[n]? = some (.selectChoice i) ∧ ∀ d, s.divergedAt = some d → n < d

/-- A rewind finds a choice exactly if one is left. -/
theorem lastChoiceBefore_eq_none_iff (s : Session) :
    s.log.lastChoiceBefore (s.divergedAt.getD s.log.length) = none ↔ ¬ s.Undoable := by
  rw [ActionLog.lastChoiceBefore, ActionLog.lastChoice_eq_none_iff]
  constructor
  · rintro h ⟨n, i, hn, hd⟩
    have hlimit : n < s.divergedAt.getD s.log.length := by
      cases hdiv : s.divergedAt with
      | none => exact (List.getElem?_eq_some_iff.mp hn).1
      | some d => exact hd d hdiv
    have hmem : Action.selectChoice i ∈ s.log.take (s.divergedAt.getD s.log.length) :=
      List.mem_of_getElem? (i := n) (by rw [List.getElem?_take_of_lt hlimit, hn])
    cases h _ hmem
  · intro h a ha
    refine Bool.eq_false_iff.mpr fun hchoice => ?_
    obtain ⟨i, rfl⟩ := Action.eq_selectChoice hchoice
    obtain ⟨n, hn, hget⟩ := List.mem_take_iff_getElem.mp ha
    refine h ⟨n, i, List.getElem?_eq_some_iff.mpr ⟨(Nat.lt_min.mp hn).2, hget⟩, fun d hd => ?_⟩
    rw [hd] at hn
    exact (Nat.lt_min.mp hn).1

instance (s : Session) : Decidable s.Undoable :=
  decidable_of_iff (s.log.lastChoiceBefore (s.divergedAt.getD s.log.length) ≠ none)
    (by rw [Ne, s.lastChoiceBefore_eq_none_iff, Classical.not_not])

theorem rewind_of_not_undoable {s : Session} (h : ¬ s.Undoable) : s.rewind = s.unchanged false := by
  unfold rewind
  split
  · rfl
  · rw [s.lastChoiceBefore_eq_none_iff.mpr h]

theorem rewind_of_undoable {s : Session} (ha : s.disposed = false) (h : s.Undoable) :
    ∃ log, s.rewind = ({ s with log := log } : Session).replay.map fun _ => true := by
  unfold rewind
  rw [if_neg (by simp [ha])]
  split
  · rename_i hnone
    exact absurd h (s.lastChoiceBefore_eq_none_iff.mp hnone)
  · exact ⟨_, rfl⟩

/-- The answer of a rewind is whether there was a choice to undo. -/
theorem rewind_answer {s : Session} (ha : s.disposed = false) {undone : Bool}
    (hok : s.rewind.result = .ok undone) : undone = true ↔ s.Undoable := by
  by_cases h : s.Undoable
  · obtain ⟨log, heq⟩ := rewind_of_undoable ha h
    rw [heq, Reply.map] at hok
    cases hresult : ({ s with log := log } : Session).replay.result with
    | error e => rw [hresult] at hok; cases hok
    | ok u => rw [hresult] at hok; cases hok; simp [h]
  · rw [rewind_of_not_undoable h] at hok
    cases hok
    simp [h]

example : inHall.Undoable ∧ ¬ inHall.rewind.session.Undoable := by decide +kernel

end Session

end StoryPreview
