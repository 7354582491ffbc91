import StoryPreview.Proofs.Session.Fold
/-!
A session is what a replay of its log gives. `Settled` says so of one session; every operation that
succeeds keeps it (`Settled.perform`), and so it holds of all sessions that are `Reached`.

What makes it true of a live session: an action is logged in a form that folds the way it was applied
(`record_ok`), and the choices dropped at a divergence are those that the replay skipped
(`Settled.rebuild_dropChoicesFrom`).
-/
namespace StoryPreview

/-- The same reply with another answer. -/
def Reply.map (f : α → β) (r : Reply α) : Reply β := ⟨r.session, r.result.map f, r.shown⟩

namespace Session

/-! ## Operations -/

/-- What can be asked of a session. -/
inductive Operation
  | begin (p : Player)
  | dispatch (a : Action)
  | rewind
  | replace (p : Player)
  | replay
  | reset
  | dispose

/-- Performs an operation. Only `rewind` has an answer, whether there was a choice to undo. -/
def perform (s : Session) : Operation → Reply (Option Bool)
  | .begin p => (s.begin p).map fun _ => none
  | .dispatch a => (s.dispatch a).map fun _ => none
  | .rewind => s.rewind.map some
  | .replace p => (s.replace p).map fun _ => none
  | .replay => s.replay.map fun _ => none
  | .reset => s.reset.map fun _ => none
  | .dispose => s.dispose.map fun _ => none

/-- Whether an operation goes on with the session instead of clearing or ending it. -/
def Operation.goesOn : Operation → Bool
  | .reset | .dispose => false
  | _ => true

/-- The sessions that come of a new one, with or without a story that has not begun, by operations
that go on with it and all succeed. -/
inductive Reached : Session → Prop
  | new (liveDefault : Bool) : Reached (.new liveDefault)
  | ofPlayer (story : Story) (budget : Nat) (liveDefault : Bool) :
      Reached (.ofPlayer (.ofStory story budget) liveDefault)
  | perform {s op answer} (h : Reached s) (hop : op.goesOn = true)
      (hok : (s.perform op).result = .ok answer) : Reached (s.perform op).session

/-- The session after operations one after another, whether or not they succeed. -/
def after (s : Session) (ops : List Operation) : Session :=
  ops.foldl (fun s op => (s.perform op).session) s

/-- Whether operations go on with the session and succeed, one after another. -/
def succeeds (s : Session) : List Operation → Bool
  | [] => true
  | op :: ops => op.goesOn && (s.perform op).result.isOk && (s.perform op).session.succeeds ops

theorem reached_after {s : Session} (h : Reached s) {ops : List Operation}
    (hops : s.succeeds ops = true) : Reached (s.after ops) := by
  induction ops generalizing s with
  | nil => exact h
  | cons op ops ih =>
    simp only [succeeds, Bool.and_eq_true] at hops
    obtain ⟨⟨hop, hok⟩, hops⟩ := hops
    cases hr : (s.perform op).result with
    | error e => rw [hr] at hok; cases hok
    | ok answer => exact ih (.perform h hop hr) hops

/-! ## Settled sessions -/

/-- Where every replay of a session begins. -/
def blank (s : Session) : Rebuilt := ⟨s.player.map Player.fresh, .empty s.liveDefault, none⟩

/-- The session is in use, and its story, state and divergence are what its log gives. -/
structure Settled (s : Session) : Prop where
  active : s.disposed = false
  fold : foldLog s.blank 0 s.log = .ok ⟨s.player, s.state, s.divergedAt⟩

theorem rebuild_ok {s t : Session} :
    s.rebuild = .ok t ↔ ∃ r, foldLog s.blank 0 s.log = .ok r ∧
      t = { s with player := r.player, state := r.state, divergedAt := r.divergedAt } := by
  unfold rebuild blank
  cases h : foldLog ⟨s.player.map Player.fresh, .empty s.liveDefault, none⟩ 0 s.log with
  | ok r => simp [eq_comm]
  | error e => simp

/-- What a replay builds is settled: it stays on the story that it is played on. -/
theorem settled_of_rebuild {s t : Session} (ha : s.disposed = false) (h : s.rebuild = .ok t) :
    Settled t := by
  obtain ⟨r, hr, rfl⟩ := rebuild_ok.mp h
  refine ⟨ha, ?_⟩
  have hplayer : r.player.map Player.fresh = s.player.map Player.fresh := by
    rw [fresh_foldLog hr, blank, Option.map_map]
    rfl
  simp only [blank, hplayer]
  exact hr

/-- The choices on display are those that the story offers. -/
theorem Settled.choices {s : Session} (h : Settled s) : s.state.choices = offered s.player := by
  refine choices_foldLog h.fold ?_
  rw [blank]
  cases s.player <;> rfl

theorem settled_new (liveDefault : Bool) : Settled (.new liveDefault) := ⟨rfl, rfl⟩

theorem settled_ofPlayer (story : Story) (budget : Nat) (liveDefault : Bool) :
    Settled (.ofPlayer (.ofStory story budget) liveDefault) := ⟨rfl, rfl⟩

/-! ## Replays -/

theorem settled_replay {s : Session} (ha : s.disposed = false) (hok : s.replay.result = .ok ()) :
    Settled s.replay.session := by
  unfold replay at hok ⊢
  rw [if_neg (by simp [ha])] at hok ⊢
  cases h : s.rebuild with
  | error e => rw [h] at hok; cases hok
  | ok t => exact settled_of_rebuild ha h

/-- A replay gives what the log folds to. -/
theorem replay_of_foldLog {s : Session} {r : Rebuilt} (ha : s.disposed = false)
    (h : foldLog s.blank 0 s.log = .ok r) :
    s.replay =
      ({ s with player := r.player, state := r.state, divergedAt := r.divergedAt } :
        Session).changed () := by
  unfold Session.replay
  rw [if_neg (by simp [ha]), rebuild_ok.mpr ⟨r, h, rfl⟩]

theorem Settled.replay {s : Session} (h : Settled s) : s.replay = s.changed () :=
  replay_of_foldLog h.active h.fold

theorem Settled.rewind {s : Session} (h : Settled s) {b : Bool} (hok : s.rewind.result = .ok b) :
    Settled s.rewind.session := by
  unfold Session.rewind at hok ⊢
  rw [if_neg (by simp [h.active])] at hok ⊢
  split at hok
  · exact h
  · rename_i position hp
    refine settled_replay h.active ?_
    cases hr : Session.replay { s with log := s.log.take position } with
    | mk t result shown =>
      rw [hr] at hok
      cases result with
      | error e => cases hok
      | ok u => rfl

/-- Replacing the story replays the log on it, without compile errors. -/
theorem replace_ok {s : Session} {p : Player} (ha : s.disposed = false)
    (hok : (s.replace p).result = .ok ()) :
    ∃ r, foldLog ⟨some p.fresh, .empty s.liveDefault, none⟩ 0 s.log.dropCompileErrors = .ok r ∧
      (s.replace p).session = { s with
        player := r.player
        log := s.log.dropCompileErrors
        state := r.state
        divergedAt := r.divergedAt } := by
  unfold Session.replace Session.replay at hok ⊢
  rw [if_neg (by simp [ha]), if_neg (by simp [ha])] at hok ⊢
  cases h : ({ s with player := some p, log := s.log.dropCompileErrors } : Session).rebuild with
  | error e => rw [h] at hok; cases hok
  | ok t =>
    obtain ⟨r, hr, rfl⟩ := rebuild_ok.mp h
    exact ⟨r, hr, rfl⟩

/-- A story takes the place of another when the log folds on it. -/
theorem replace_of_foldLog {s : Session} {p : Player} {r : Rebuilt} (ha : s.disposed = false)
    (h : foldLog ⟨some p.fresh, .empty s.liveDefault, none⟩ 0 s.log.dropCompileErrors = .ok r) :
    s.replace p =
      ({ s with
        player := r.player
        log := s.log.dropCompileErrors
        state := r.state
        divergedAt := r.divergedAt } : Session).changed () := by
  unfold Session.replace
  rw [if_neg (by simp [ha])]
  exact replay_of_foldLog (s := { s with player := some p, log := s.log.dropCompileErrors }) ha h

theorem Settled.replace {s : Session} (h : Settled s) {p : Player}
    (hok : (s.replace p).result = .ok ()) : Settled (s.replace p).session := by
  unfold Session.replace at hok ⊢
  rw [if_neg (by simp [h.active])] at hok ⊢
  exact settled_replay h.active hok

/-! ## Recorded actions -/

/-- What is logged for an action when the story is `p`: a choice that is not on offer leaves the error
it gave. -/
def logged (p : Option Player) : Action → Action
  | .selectChoice i =>
    if (offered p).length ≤ i then .recordErrors [.invalidChoice i (offered p).length]
    else .selectChoice i
  | a => a

theorem logged_of_not_moves (p : Option Player) {a : Action} (h : a.movesStory = false) :
    logged p a = a := by
  cases a <;> simp_all [logged, Action.movesStory]

/-- A choice that is on offer is logged as it is. -/
theorem logged_selectChoice {p : Option Player} {i : Nat} (hi : i < (offered p).length) :
    logged p (.selectChoice i) = .selectChoice i := if_neg (Nat.not_le.mpr hi)

/-- An action is logged in a form that folds the way the action was applied. -/
theorem record_ok {s : Session} {a : Action} (hok : (s.record a).result = .ok ())
    (hd : s.divergedAt = none ∨ a.affectsChoice = false) :
    ∃ q t, (s.record a).session =
        { s with player := q, state := t, log := s.log ++ [logged s.player a] } ∧
      ∀ n, Folds n ⟨s.player, s.state, s.divergedAt⟩ (logged s.player a) ⟨q, t, s.divergedAt⟩ := by
  unfold record at hok ⊢
  cases hp : s.player with
  | none =>
    rw [hp] at hok
    dsimp only at hok ⊢
    split at hok
    · cases hok
    · rename_i ha
      have hm : a.movesStory = false := by
        cases a <;> simp_all [Action.movesStory, Action.affectsChoice]
      have hc : a.affectsChoice = false := Action.affectsChoice_of_not_moves hm
      rw [if_neg ha, logged_of_not_moves none hm]
      exact ⟨none, _, rfl, fun n => .note (.inl rfl) (by simp [hc])⟩
  | some p =>
    rw [hp] at hok
    dsimp only at hok ⊢
    split at hok
    · cases hok
    · rename_i q t o happ
      refine ⟨some q, t, ?_⟩
      cases State.apply_ok.mp happ with
      | start hq => exact ⟨rfl, fun n => .start hq⟩
      | @choose i q passage hi hq =>
        have hd : s.divergedAt = none := by simpa [Action.affectsChoice] using hd
        rw [logged_selectChoice hi, hd]
        exact ⟨rfl, fun n => .choose hi hq⟩
      | @refuse i hi =>
        have hl : logged (some p) (.selectChoice i) =
            .recordErrors [.invalidChoice i p.choices.length] := if_pos hi
        rw [hl]
        refine ⟨by simp [changed], fun n => ?_⟩
        exact .note (.inr rfl) (by simp [Action.affectsChoice])
      | note ha =>
        have hc : a.affectsChoice = false := Action.affectsChoice_of_not_moves ha
        rw [logged_of_not_moves _ ha, if_neg (State.annotate_ne_invalidChoice s.state a)]
        exact ⟨rfl, fun n => .note (.inr ha) (by simp [hc])⟩

theorem Settled.record {s : Session} (h : Settled s) {a : Action}
    (hd : s.divergedAt = none ∨ a.affectsChoice = false) (hok : (s.record a).result = .ok ()) :
    Settled (s.record a).session := by
  obtain ⟨q, t, hrec, hfold⟩ := record_ok hok hd
  rw [hrec]
  refine ⟨h.active, ?_⟩
  have hstep := foldLog_of_folds (hfold (0 + s.log.length))
  have hq : q.map Player.fresh = s.player.map Player.fresh := fresh_foldLog hstep
  simp only [blank, hq]
  exact foldLog_append_ok.mpr ⟨_, h.fold, hstep⟩

/-! ## Choices at a divergence -/

/-- A diverged session without the choices from the divergence at `d` on and without the error that it
left: what a new choice is applied to. -/
def resumed (s : Session) (d : Nat) : Session :=
  { s with
    divergedAt := none
    log := s.log.dropChoicesFrom d
    state := { s.state with errors := s.log.errors } }

/-- The log of a diverged session, cut at the choice that its story refused. -/
theorem Settled.exists_refused {s : Session} (h : Settled s) {d : Nat}
    (hd : s.divergedAt = some d) :
    ∃ l₁ i l₂ p t, s.log = l₁ ++ .selectChoice i :: l₂ ∧ d = l₁.length ∧
      foldLog s.blank 0 l₁ = .ok ⟨some p, t, none⟩ ∧ p.choices.length ≤ i ∧
      foldLog ⟨some p, { t with errors := t.errors ++ [.invalidChoice i p.choices.length] }, some d⟩
        (d + 1) l₂ = .ok ⟨s.player, s.state, s.divergedAt⟩ := by
  obtain ⟨l₁, i, l₂, p, t, hlog, hlen, hl₁, hi, hl₂⟩ := Session.exists_refused h.fold rfl hd
  exact ⟨l₁, i, l₂, p, t, hlog, by rw [hlen, Nat.zero_add], hl₁, hi, hl₂⟩

theorem dropChoicesFrom_length (l₁ l₂ : ActionLog) :
    ActionLog.dropChoicesFrom (l₁ ++ l₂) l₁.length =
      l₁ ++ l₂.filter fun a => !a.affectsChoice := by
  unfold ActionLog.dropChoicesFrom
  rw [List.take_left, List.drop_left]

/-- The choices dropped at a divergence are those that the replay skipped, so the rebuilt story stands
where it stood and the state loses one error. -/
theorem Settled.rebuild_dropChoicesFrom {s : Session} (h : Settled s) {d : Nat}
    (hd : s.divergedAt = some d) :
    ({ s with divergedAt := none, log := s.log.dropChoicesFrom d } : Session).rebuild =
      .ok (s.resumed d) := by
  obtain ⟨l₁, i, l₂, p, t, hlog, rfl, hl₁, hi, hl₂⟩ := h.exists_refused hd
  have hrest := foldLog_of_diverged hl₂ rfl t.errors (0 + l₁.length)
  have hdrop : s.log.dropChoicesFrom l₁.length = l₁ ++ l₂.filter fun a => !a.affectsChoice := by
    rw [hlog, dropChoicesFrom_length]
    rfl
  have herrors : s.log.errors = t.errors ++ ActionLog.errors l₂ := by
    rw [hlog, ActionLog.errors_append, ActionLog.errors_cons, errors_foldLog hl₁ rfl]
    rfl
  refine rebuild_ok.mpr
    ⟨⟨s.player, { s.state with errors := s.log.errors }, none⟩, ?_, rfl⟩
  dsimp only
  rw [hdrop, herrors]
  exact foldLog_append_ok.mpr ⟨_, hl₁, hrest⟩

theorem Settled.resumed {s : Session} (h : Settled s) {d : Nat} (hd : s.divergedAt = some d) :
    Settled (s.resumed d) := by
  refine settled_of_rebuild ?_ (h.rebuild_dropChoicesFrom hd)
  exact h.active

theorem dispatch_eq_record {s : Session} {a : Action} (ha : s.disposed = false)
    (hr : a ≠ .rewind) (hd : s.divergedAt = none ∨ a.affectsChoice = false) :
    s.dispatch a = s.record a := by
  unfold dispatch
  rw [if_neg (by simp [ha]), if_neg hr]
  rcases hd with hd | hd
  · rw [hd]
    cases a.affectsChoice <;> rfl
  · rw [hd]

theorem Settled.dispatch_eq_record_resumed {s : Session} (h : Settled s) {a : Action} {d : Nat}
    (hd : s.divergedAt = some d) (ha : a.affectsChoice = true) :
    s.dispatch a = (s.resumed d).record a := by
  have hr : a ≠ .rewind := by rintro rfl; cases ha
  unfold dispatch
  rw [if_neg (by simp [h.active]), if_neg hr, ha, hd]
  dsimp only
  rw [h.rebuild_dropChoicesFrom hd]

/-! ## Every operation -/

theorem Settled.dispatch {s : Session} (h : Settled s) {a : Action}
    (hok : (s.dispatch a).result = .ok ()) : Settled (s.dispatch a).session := by
  by_cases hr : a = .rewind
  · subst hr
    unfold Session.dispatch at hok ⊢
    rw [if_neg (by simp [h.active]), if_pos rfl] at hok ⊢
    cases hs : s.rewind.result with
    | error e => simp [hs, Except.map] at hok
    | ok b => exact h.rewind hs
  · cases hd : s.divergedAt with
    | none =>
      rw [dispatch_eq_record h.active hr (.inl hd)] at hok ⊢
      exact h.record (.inl hd) hok
    | some d =>
      cases hc : a.affectsChoice with
      | false =>
        rw [dispatch_eq_record h.active hr (.inr hc)] at hok ⊢
        exact h.record (.inr hc) hok
      | true =>
        rw [h.dispatch_eq_record_resumed hd hc] at hok ⊢
        exact (h.resumed hd).record (.inl rfl) hok

/-- Where a story stands does not matter to a session that begins with it. -/
theorem begin_fresh (s : Session) (p : Player) : s.begin p.fresh = s.begin p := by
  unfold Session.begin
  split
  · rfl
  · rename_i ha
    have hrecord (q : Player) := dispatch_eq_record
      (s := { s with player := some q, log := [], state := .empty s.liveDefault, divergedAt := none })
      (a := .start) (by simpa using ha) (by simp) (.inl rfl)
    rw [hrecord, hrecord]
    rfl

theorem Settled.begin {s : Session} (h : Settled s) {p : Player}
    (hok : (s.begin p).result = .ok ()) : Settled (s.begin p).session := by
  rw [← begin_fresh] at hok ⊢
  unfold Session.begin at hok ⊢
  rw [if_neg (by simp [h.active])] at hok ⊢
  refine Settled.dispatch ?_ hok
  exact ⟨h.active, rfl⟩

theorem Reply.result_of_map {r : Reply α} {f : α → β} {b : β} (h : (r.map f).result = .ok b) :
    ∃ a, r.result = .ok a := by
  unfold Reply.map at h
  cases hr : r.result with
  | error e => simp [hr, Except.map] at h
  | ok a => exact ⟨a, rfl⟩

theorem Settled.perform {s : Session} (h : Settled s) {op : Operation} {answer : Option Bool}
    (hop : op.goesOn = true) (hok : (s.perform op).result = .ok answer) :
    Settled (s.perform op).session := by
  cases op with
  | begin p => exact h.begin (Reply.result_of_map hok).choose_spec
  | dispatch a => exact h.dispatch (Reply.result_of_map hok).choose_spec
  | rewind => exact h.rewind (Reply.result_of_map hok).choose_spec
  | replace p => exact h.replace (Reply.result_of_map hok).choose_spec
  | replay => exact settled_replay h.active (Reply.result_of_map hok).choose_spec
  | reset => cases hop
  | dispose => cases hop

theorem settled_of_reached {s : Session} (h : Reached s) : Settled s := by
  induction h with
  | new liveDefault => exact settled_new liveDefault
  | ofPlayer story budget liveDefault => exact settled_ofPlayer story budget liveDefault
  | perform _ hop hok ih => exact ih.perform hop hok

/-- A replay of a session that was reached by operations that all succeeded succeeds and changes
nothing: neither what is shown, nor the log, nor whether the session has diverged, nor the choices
that its story offers. -/
theorem replay_of_reached {s : Session} (h : Reached s) :
    s.replay.result = .ok () ∧
      s.replay.session.state = s.state ∧
      s.replay.session.log = s.log ∧
      s.replay.session.isDiverged = s.isDiverged ∧
      s.replay.session.player.map Player.choices = s.player.map Player.choices := by
  rw [(settled_of_reached h).replay]
  exact ⟨rfl, rfl, rfl, rfl, rfl⟩

end Session

/-! ## An example -/

/-- A story with a fork, and behind its left branch a hall with some ways out. -/
def Story.hall (ways : List Choice) : Story where
  nodes := #[.say none "A fork.", .branch [⟨"go left", "left"⟩, ⟨"go right", "right"⟩],
    .label "left", .say none "A hall.", .branch ways,
    .label "door", .say none "Behind the door.", .label "right", .say none "The end."]
  labels := .ofList [("left", 2), ("door", 5), ("right", 7)]

/-- The hall with a way back and a door. -/
def Player.openHall : Player :=
  .ofStory (.hall [⟨"flee", "right"⟩, ⟨"open the door", "door"⟩]) 100

/-- The hall without its door. -/
def Player.shutHall : Player := .ofStory (.hall [⟨"flee", "right"⟩]) 100

/-- A session whose reader went through the door before an edit took it away, and left notes since. -/
def Session.strayed : Session :=
  (Session.new true).after [
    .begin .openHall, .dispatch (.selectChoice 0), .dispatch (.selectChoice 9),
    .dispatch (.selectChoice 1), .dispatch (.recordEvents [⟨"ping", []⟩]), .replace .shutHall,
    .dispatch (.toggleLiveUpdate false)]

theorem Session.reached_strayed : Reached .strayed :=
  reached_after (.new true) (by decide +kernel)

/-- It has diverged, and a replay leaves it so. -/
theorem Session.replay_of_reached_strayed :
    Reached .strayed ∧ strayed.isDiverged = true ∧
      strayed.replay.result = .ok () ∧
      strayed.replay.session.state = strayed.state ∧
      strayed.replay.session.log = strayed.log ∧
      strayed.replay.session.isDiverged = strayed.isDiverged ∧
      strayed.replay.session.player.map Player.choices = strayed.player.map Player.choices :=
  ⟨reached_strayed, by decide +kernel, replay_of_reached reached_strayed⟩

end StoryPreview
