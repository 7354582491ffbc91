import StoryPreview.Proofs.Session.Dispatch
import StoryPreview.Proofs.Story.Course
/-!
Choices on display. A session refuses a choice exactly if its story does not offer it
(`refuses_iff_offered`), so the choices on display can be taken as long as the story offers as many
(`InStep`). An action that the story fails is not recorded, and it leaves the story without choices
(`record_error`), whatever is on display. `Ran` follows a run of operations, failed ones included, and keeps a
flag that each operation sets by what it comes to. The flag is clear exactly if story and display are in step
(`tells_of_ran`), and exactly then the choices that are refused are those that are not on display
(`refuses_iff`).
-/
namespace StoryPreview

/-! ## Failed runs -/

namespace Story

/-- A run that is cut off has come to no branch. -/
theorem pending_of_unfinished {s : Story} {budget : Nat} {c : Cursor} {trace : List Output}
    (h : (s.advance budget c trace).finished = false) :
    (s.advance budget c trace).cursor.pending = c.pending := by
  induction budget generalizing c trace with
  | zero => rfl
  | succ budget ih =>
    cases hn : s.node? c.pc with
    | none =>
      rw [advance_none hn] at h
      cases h
    | some node =>
      rw [advance_some hn] at h ⊢
      by_cases hs : stops node = true
      · rw [if_pos hs] at h
        cases h
      · rw [if_neg hs] at h ⊢
        have hmove : (s.move c node).pending = c.pending := move_pending s c (by simpa using hs)
        exact (ih h).trans hmove

theorem pending_of_run_error {s : Story} {limit : Nat} {c c' : Cursor} {e : RuntimeError}
    (h : s.run limit c = (c', .error e)) : c'.pending = [] := by
  unfold run at h
  by_cases hw : c.isWaiting = true
  · rw [if_pos hw] at h
    cases h
  · rw [if_neg hw] at h
    have hc : c.pending = [] := by simpa [Cursor.isWaiting] using hw
    simp only [Prod.mk.injEq] at h
    obtain ⟨rfl, hresult⟩ := h
    split at hresult
    · cases hresult
    · rename_i hf
      exact (pending_of_unfinished (by simpa using hf)).trans hc

end Story

/-- A story goes on unless the budget is spent, and then it offers nothing. -/
theorem Player.goOn_error {p q : Player} {e : RuntimeError} (h : p.goOn = (q, .error e)) :
    e = .stepLimit p.budget ∧ q.choices = [] := by
  have hrun : p.story.run p.budget p.cursor = (q.cursor, .error e) := by
    unfold goOn at h
    simp only [Prod.mk.injEq] at h
    obtain ⟨rfl, hresult⟩ := h
    exact Prod.ext rfl hresult
  constructor
  · have hresult := congrArg Prod.snd hrun
    unfold Story.run at hresult
    split at hresult
    · cases hresult
    · dsimp only at hresult
      split at hresult
      · cases hresult
      · exact (Except.error.inj hresult).symm
  · unfold choices
    rw [Story.pending_of_run_error hrun]
    rfl

/-- A choice on offer fails only for want of budget. -/
theorem Player.choose_error {p q : Player} {i : Nat} {e : RuntimeError} (hi : i < p.choices.length)
    (h : p.choose i = (q, .error e)) : e = .stepLimit p.budget ∧ q.choices = [] := by
  have hselect : ∃ c, p.story.select p.cursor i = .ok c := by
    rw [length_choices_eq] at hi
    unfold Story.select
    rw [List.getElem?_eq_getElem hi]
    exact ⟨_, rfl⟩
  obtain ⟨c, hselect⟩ := hselect
  rw [choose_of_ok hselect] at h
  exact goOn_error (p := { p with cursor := c }) h

theorem State.afterRun_error {s : State} {p : Player} {result : Except RuntimeError Passage}
    {e : RuntimeError} (h : s.afterRun p result = .error e) : result = .error e := by
  cases result with
  | ok passage => cases h
  | error e' => exact congrArg Except.error (Except.error.inj h)

/-- An action fails because the story runs out of budget, and a choice only if it is on offer. The story
stays the same one and offers nothing. -/
theorem State.apply_error {s : State} {p q : Player} {a : Action} {e : RuntimeError}
    (h : s.apply p a = (q, .error e)) :
    (∀ i, a = .selectChoice i → i < p.choices.length) ∧ (e = .stepLimit p.budget ∧ q.choices = []) ∧
      q.fresh = p.fresh := by
  cases a with
  | start =>
    simp only [State.apply, Prod.mk.injEq] at h
    have hrun : p.fresh.goOn = (q, .error e) := Prod.ext h.1 (afterRun_error h.2)
    refine ⟨fun i hi => ?_, Player.goOn_error (p := p.fresh) hrun,
      (Player.fresh_of_goOn hrun).trans rfl⟩
    cases hi
  | selectChoice i =>
    simp only [State.apply] at h
    split at h
    · cases h
    · rename_i hi
      simp only [Prod.mk.injEq] at h
      have hrun : p.choose i = (q, .error e) := Prod.ext h.1 (afterRun_error h.2)
      refine ⟨fun j hj => ?_, Player.choose_error (Nat.lt_of_not_le hi) hrun,
        Player.fresh_of_choose hrun⟩
      cases hj
      exact Nat.lt_of_not_le hi
  | _ => cases h

namespace Session

/-- An action that fails is not recorded. All it can have done is to move the story, if there is one, and
no choices are on offer then. -/
theorem record_error {s : Session} {a : Action} {e : SessionError}
    (h : (s.record a).result = .error e) :
    ∃ q, s.record a = ({ s with player := q } : Session).failed e ∧ offered q = [] ∧
      q.map Player.fresh = s.player.map Player.fresh ∧
      ∀ p, s.player = some p → e = .runtime (.stepLimit p.budget) ∧
        ∀ i, a = .selectChoice i → i < p.choices.length := by
  obtain ⟨player, log, state, liveDefault, divergedAt, disposed⟩ := s
  unfold record at h ⊢
  cases player with
  | none =>
    dsimp only at h ⊢
    split at h
    · rename_i hc
      cases h
      exact ⟨none, if_pos hc, rfl, rfl, nofun⟩
    · cases h
  | some p =>
    dsimp only at h ⊢
    split at h
    · rename_i q e' happly
      cases h
      obtain ⟨hi, ⟨rfl, hnothing⟩, hfresh⟩ := State.apply_error happly
      refine ⟨some q, rfl, hnothing, congrArg some hfresh, fun p' hp => ?_⟩
      cases hp
      exact ⟨rfl, hi⟩
    · cases h

/-! ## Refusals -/

/-- The session refuses a choice: the dispatch succeeds and leaves an error that says so. -/
def Refuses (s : Session) (i : Nat) : Prop :=
  (s.dispatch (.selectChoice i)).result = .ok () ∧
    ∃ available, (s.dispatch (.selectChoice i)).session.state.errors =
      s.state.errors ++ [.invalidChoice i available]

/-- An action that does not touch the story is recorded as it is, wherever the story stands. -/
theorem record_of_not_moves (s : Session) {a : Action} (ha : a.movesStory = false) :
    s.record a =
      ({ s with state := (s.state.annotate a).1, log := s.log ++ [a] } : Session).changed () := by
  obtain ⟨player, log, state, liveDefault, divergedAt, disposed⟩ := s
  unfold record
  cases player with
  | none =>
    have hno : ¬ (decide (a = .start) || a.affectsChoice) = true := by
      cases a <;> simp_all [Action.movesStory, Action.affectsChoice]
    exact if_neg hno
  | some p =>
    dsimp only
    rw [State.apply_of_not_moves state p ha]
    dsimp only
    rw [if_neg (State.annotate_ne_invalidChoice state a)]

/-- A choice that is not on offer leaves its error in state and log, and nothing else changes. -/
theorem record_refused {s : Session} {p : Player} {i : Nat} (hp : s.player = some p)
    (hi : p.choices.length ≤ i) :
    s.record (.selectChoice i) =
      ({ s with
        state := { s.state with errors := s.state.errors ++ [.invalidChoice i p.choices.length] }
        log := s.log ++ [.recordErrors [.invalidChoice i p.choices.length]] } :
          Session).changed () := by
  obtain ⟨player, log, state, liveDefault, divergedAt, disposed⟩ := s
  obtain rfl : player = some p := hp
  have happly := State.apply_ok.mpr (State.Applies.refuse (s := state) hi)
  unfold record
  dsimp only
  rw [happly]
  simp

/-- A choice that is on offer is no error. -/
theorem errors_of_offered {s : Session} {p : Player} {i : Nat} (hp : s.player = some p)
    (hi : i < p.choices.length) (hok : (s.record (.selectChoice i)).result = .ok ()) :
    (s.record (.selectChoice i)).session.state.errors = s.state.errors := by
  unfold record at hok ⊢
  rw [hp] at hok ⊢
  dsimp only at hok ⊢
  split at hok
  · cases hok
  · rename_i q t o happ
    cases State.apply_ok.mp happ with
    | choose _ _ => rfl
    | refuse hle => exact absurd hi (Nat.not_lt.mpr hle)
    | note ha => cases ha

/-- A session that is not diverged refuses a choice exactly if its story does not offer it. -/
theorem refuses_iff_offered {s : Session} {p : Player} {i : Nat} (ha : s.disposed = false)
    (hd : s.divergedAt = none) (hp : s.player = some p) :
    s.Refuses i ↔ p.choices.length ≤ i := by
  have hrecord : s.dispatch (.selectChoice i) = s.record (.selectChoice i) :=
    dispatch_eq_record ha (by simp) (.inl hd)
  unfold Refuses
  rw [hrecord]
  constructor
  · rintro ⟨hok, available, herrors⟩
    refine Nat.le_of_not_lt fun hi => ?_
    rw [errors_of_offered hp hi hok] at herrors
    simp at herrors
  · intro hi
    rw [record_refused hp hi]
    exact ⟨rfl, _, rfl⟩

/-! ## In step -/

/-- As many choices are on display as the story offers. -/
def InStep (s : Session) : Prop := s.state.choices.length = (offered s.player).length

/-- The flag says whether the session is astray, that is, not in step. -/
def Tells (astray : Bool) (s : Session) : Prop := astray = false ↔ s.InStep

theorem Settled.inStep {s : Session} (h : Settled s) : InStep s := congrArg List.length h.choices

theorem InStep.tells {s : Session} (h : InStep s) : Tells false s := iff_of_true rfl h

/-- A session whose story offers nothing is astray if choices are on display. -/
theorem tells_of_offered_nil {s : Session} (h : offered s.player = []) :
    Tells (!s.state.choices.isEmpty) s := by
  unfold Tells InStep
  rw [h]
  simp

theorem Tells.congr {astray : Bool} {s t : Session} (h : Tells astray s)
    (hchoices : t.state.choices = s.state.choices) (hplayer : t.player = s.player) : Tells astray t := by
  unfold Tells InStep at h ⊢
  rw [hchoices, hplayer]
  exact h

/-- A flag stays as it is if the session does, and it is cleared if the session is brought in step. -/
theorem Tells.cleared {astray clears : Bool} {s t : Session} (h : Tells astray s)
    (hclears : clears = true → InStep t)
    (hkeeps : clears = false → t.state.choices = s.state.choices ∧ t.player = s.player) :
    Tells (astray && !clears) t := by
  cases clears with
  | true =>
    rw [Bool.not_true, Bool.and_false]
    exact (hclears rfl).tells
  | false =>
    rw [Bool.not_false, Bool.and_true]
    exact h.congr (hkeeps rfl).1 (hkeeps rfl).2

/-! ## Actions -/

/-- Whether the story takes an action up: a start always, a choice if it is on offer, and nothing else. -/
def accepts (s : Session) : Action → Bool
  | .start => true
  | .selectChoice i => i < (offered s.player).length
  | _ => false

/-- Whether the session is astray once the action is recorded. -/
def astrayRecord (astray : Bool) (s : Session) (a : Action) : Bool :=
  match (s.record a).result with
  | .ok _ => astray && !s.accepts a
  -- The story offers nothing then, and the display is as it was.
  | .error _ => !s.state.choices.isEmpty

/-- What an action that the story takes up leaves on display is what the story offers then; any other
action that is recorded leaves story and choices as they are. -/
theorem choices_of_record {s : Session} {a : Action} (hok : (s.record a).result = .ok ()) :
    (s.accepts a = true → InStep (s.record a).session) ∧
      (s.accepts a = false → (s.record a).session.state.choices = s.state.choices ∧
        (s.record a).session.player = s.player) := by
  obtain ⟨player, log, state, liveDefault, divergedAt, disposed⟩ := s
  unfold record at hok ⊢
  cases player with
  | none =>
    dsimp only at hok ⊢
    split at hok
    · cases hok
    · rename_i hno
      rw [if_neg hno]
      refine ⟨fun ha => ?_, fun _ => ⟨State.choices_annotate state a, rfl⟩⟩
      cases a <;> simp_all [accepts, offered]
  | some p =>
    dsimp only at hok ⊢
    split at hok
    · cases hok
    · rename_i q t o happ
      cases State.apply_ok.mp happ with
      | start _ => exact ⟨fun _ => rfl, nofun⟩
      | choose hi _ => exact ⟨fun _ => rfl, fun hno => absurd hi (of_decide_eq_false hno)⟩
      | refuse hi =>
        exact ⟨fun hyes => absurd (of_decide_eq_true hyes) (Nat.not_lt.mpr hi), fun _ => ⟨rfl, rfl⟩⟩
      | note ha =>
        refine ⟨fun hyes => ?_, fun _ => ⟨State.choices_annotate state a, rfl⟩⟩
        cases a <;> simp_all [accepts, Action.movesStory]

theorem Tells.record {astray : Bool} {s : Session} (h : Tells astray s) (a : Action) :
    Tells (s.astrayRecord astray a) (s.record a).session := by
  unfold astrayRecord
  cases hr : (s.record a).result with
  | ok u => exact h.cleared (choices_of_record hr).1 (choices_of_record hr).2
  | error e =>
    obtain ⟨q, hrecord, hnothing, _⟩ := record_error hr
    rw [hrecord]
    exact tells_of_offered_nil (s := { s with player := q }) hnothing

/-! ## Replays -/

theorem Tells.replay {astray : Bool} {s : Session} (ha : s.disposed = false) (h : Tells astray s) :
    Tells (astray && !s.replay.result.isOk) s.replay.session := by
  obtain ⟨t, hrebuild, hreplay⟩ | ⟨e, _, hreplay⟩ := replay_cases ha
  · rw [hreplay]
    exact h.cleared (fun _ => (settled_of_rebuild ha hrebuild).inStep) nofun
  · rw [hreplay]
    exact h.cleared nofun fun _ => ⟨rfl, rfl⟩

/-- Whether a rewind undoes a choice. -/
def undoes (s : Session) : Bool :=
  match s.rewind.result with
  | .ok undone => undone
  | .error _ => false

theorem Tells.rewind {astray : Bool} {s : Session} (ha : s.disposed = false) (h : Tells astray s) :
    Tells (astray && !s.undoes) s.rewind.session := by
  unfold undoes
  by_cases hundo : s.Undoable
  · obtain ⟨log, heq⟩ := rewind_of_undoable ha hundo
    have hreplay := Tells.replay (s := { s with log }) ha (h.congr rfl rfl)
    rw [heq]
    generalize ({ s with log } : Session).replay = r at hreplay ⊢
    obtain ⟨t, result, shown⟩ := r
    cases result <;> exact hreplay
  · rw [rewind_of_not_undoable hundo]
    exact h.cleared nofun fun _ => ⟨rfl, rfl⟩

theorem tells_replace {s : Session} (ha : s.disposed = false) (p : Player) :
    Tells (s.state.choices.length != p.choices.length && !(s.replace p).result.isOk)
      (s.replace p).session := by
  have hreplaced : Tells (s.state.choices.length != p.choices.length)
      { s with player := some p, log := s.log.dropCompileErrors } := bne_eq_false_iff_eq
  unfold Session.replace
  rw [if_neg (by simp [ha])]
  exact hreplaced.replay ha

/-! ## Runs that may fail -/

/-- Whether the session is astray after an action. A choice that is made where the session has diverged is
recorded after a replay of the log without the choices from there on. -/
def astrayDispatch (astray : Bool) (s : Session) (a : Action) : Bool :=
  if a = .rewind then astray && !s.undoes
  else match a.affectsChoice, s.divergedAt with
  | true, some d =>
    match ({ s with divergedAt := none, log := s.log.dropChoicesFrom d } : Session).rebuild with
    | .ok t => t.astrayRecord false a
    | .error _ => astray
  | _, _ => s.astrayRecord astray a

/-- Whether the session is astray after an operation. -/
def astrayAfter (astray : Bool) (s : Session) : Operation → Bool
  | .begin _ => false
  | .dispatch a => s.astrayDispatch astray a
  | .rewind => astray && !s.undoes
  -- A story that fails the replay stays where it was handed over, and the display is that of the old one.
  | .replace p => s.state.choices.length != p.choices.length && !(s.replace p).result.isOk
  | .replay => astray && !s.replay.result.isOk
  | .reset | .dispose => astray

/-- The sessions that runs of operations lead to which go on with them, whether or not they succeed, each
with the flag that says whether it is astray. -/
inductive Ran : (astray : Bool) → Session → Prop
  | new (liveDefault : Bool) : Ran false (.new liveDefault)
  | ofPlayer (p : Player) (liveDefault : Bool) : Ran (!p.choices.isEmpty) (.ofPlayer p liveDefault)
  | perform {before after s op} (h : Ran before s) (hop : op.goesOn = true)
      (hafter : s.astrayAfter before op = after) : Ran after (s.perform op).session

/-- Whether the session is astray after operations one after another. -/
def astrayAfterAll (astray : Bool) (s : Session) : List Operation → Bool
  | [] => astray
  | op :: ops => (s.perform op).session.astrayAfterAll (s.astrayAfter astray op) ops

theorem ran_after {before after : Bool} {s : Session} {ops : List Operation} (h : Ran before s)
    (hops : ops.all Operation.goesOn = true) (hafter : s.astrayAfterAll before ops = after) :
    Ran after (s.after ops) := by
  induction ops generalizing before s with
  | nil => exact hafter ▸ h
  | cons op ops ih =>
    rw [List.all_cons, Bool.and_eq_true] at hops
    exact ih (.perform h hops.1 rfl) hops.2 hafter

theorem Tells.dispatch {astray : Bool} {s : Session} (ha : s.disposed = false) (h : Tells astray s)
    (a : Action) : Tells (s.astrayDispatch astray a) (s.dispatch a).session := by
  unfold astrayDispatch
  by_cases hrewind : a = .rewind
  · subst hrewind
    rw [if_pos rfl, dispatch_rewind]
    exact h.rewind ha
  · rw [if_neg hrewind]
    cases hc : a.affectsChoice with
    | false =>
      rw [dispatch_eq_record ha hrewind (.inr hc)]
      exact h.record a
    | true =>
      cases hd : s.divergedAt with
      | none =>
        rw [dispatch_eq_record ha hrewind (.inl hd)]
        exact h.record a
      | some d =>
        unfold Session.dispatch
        rw [if_neg (by simp [ha]), if_neg hrewind, hc, hd]
        dsimp only
        cases hrebuild :
            ({ s with divergedAt := none, log := s.log.dropChoicesFrom d } : Session).rebuild with
        | ok t => exact (settled_of_rebuild (by exact ha) hrebuild).inStep.tells.record a
        | error e => exact h.congr rfl rfl

/-- A session begins in step, also if the story fails: then nothing is on display. -/
theorem inStep_begin {s : Session} (ha : s.disposed = false) (p : Player) :
    InStep (s.begin p).session := by
  unfold Session.begin
  rw [if_neg (by simp [ha]), dispatch_eq_record (by exact ha) (by simp) (.inl rfl)]
  cases hr : (Session.record _ .start).result with
  | ok u => exact (choices_of_record hr).1 rfl
  | error e =>
    obtain ⟨q, hrecord, hnothing, _⟩ := record_error hr
    rw [hrecord]
    exact (congrArg List.length hnothing).symm

theorem disposed_record (s : Session) (a : Action) :
    (s.record a).session.disposed = s.disposed := by
  unfold Session.record
  split
  · split <;> rfl
  · split <;> rfl

theorem disposed_replay (s : Session) : s.replay.session.disposed = s.disposed := by
  unfold Session.replay
  split
  · rfl
  · split
    · rename_i t ht
      obtain ⟨r, _, rfl⟩ := rebuild_ok.mp ht
      rfl
    · rfl

theorem disposed_rewind (s : Session) : s.rewind.session.disposed = s.disposed := by
  unfold Session.rewind
  split
  · rfl
  · split
    · rfl
    · exact disposed_replay _

theorem disposed_dispatch (s : Session) (a : Action) :
    (s.dispatch a).session.disposed = s.disposed := by
  unfold Session.dispatch
  split
  · rfl
  · split
    · exact disposed_rewind s
    · split
      · dsimp only
        split
        · rename_i t ht
          obtain ⟨r, _, rfl⟩ := rebuild_ok.mp ht
          exact disposed_record _ a
        · rfl
      · exact disposed_record s a

/-- Only `dispose` disposes of a session. -/
theorem disposed_perform (s : Session) {op : Operation} (hop : op.goesOn = true) :
    (s.perform op).session.disposed = s.disposed := by
  cases op with
  | begin p =>
    show (s.begin p).session.disposed = s.disposed
    unfold Session.begin
    split
    · rfl
    · exact disposed_dispatch _ .start
  | dispatch a => exact disposed_dispatch s a
  | rewind => exact disposed_rewind s
  | replace p =>
    show (s.replace p).session.disposed = s.disposed
    unfold Session.replace
    split
    · rfl
    · exact disposed_replay _
  | replay => exact disposed_replay s
  | reset => cases hop
  | dispose => cases hop

theorem Tells.perform {astray : Bool} {s : Session} (ha : s.disposed = false) (h : Tells astray s)
    {op : Operation} (hop : op.goesOn = true) :
    Tells (s.astrayAfter astray op) (s.perform op).session := by
  cases op with
  | begin p => exact (inStep_begin ha p).tells
  | dispatch a => exact h.dispatch ha a
  | rewind => exact h.rewind ha
  | replace p => exact tells_replace ha p
  | replay => exact h.replay ha
  | reset => cases hop
  | dispose => cases hop

theorem tells_of_ran {astray : Bool} {s : Session} (h : Ran astray s) :
    s.disposed = false ∧ Tells astray s := by
  induction h with
  | new liveDefault => exact ⟨rfl, InStep.tells rfl⟩
  | ofPlayer p liveDefault =>
    refine ⟨rfl, ?_⟩
    unfold Tells InStep
    rw [Bool.not_eq_false', List.isEmpty_iff_length_eq_zero]
    exact eq_comm
  | perform _ hop hafter ih =>
    rw [← hafter]
    exact ⟨(disposed_perform _ hop).trans ih.1, ih.2.perform ih.1 hop⟩

/-- A session refuses exactly the choices that are not on display, whatever was done with it and whatever
failed, unless it is astray; and then it does not. -/
theorem refuses_iff {astray : Bool} {s : Session} (h : Ran astray s) (hstory : s.hasStory = true)
    (hd : s.isDiverged = false) :
    (∀ i, s.Refuses i ↔ s.state.choices.length ≤ i) ↔ astray = false := by
  obtain ⟨ha, htells⟩ := tells_of_ran h
  obtain ⟨p, hp⟩ := Option.isSome_iff_exists.mp hstory
  have hdiv : s.divergedAt = none := by simpa [isDiverged] using hd
  have hrefuses (i : Nat) : s.Refuses i ↔ (offered s.player).length ≤ i := by
    rw [hp]
    exact refuses_iff_offered ha hdiv hp
  simp only [hrefuses]
  refine Iff.trans ⟨fun hall => ?_, fun hlength i => by rw [hlength]⟩ htells.symm
  exact Nat.le_antisymm ((hall _).mp (Nat.le_refl _)) ((hall _).mpr (Nat.le_refl _))

end Session

/-! ## An example -/

/-- A fork of which one branch goes round and round. -/
def Story.roundabout : Story where
  nodes := #[.say none "A fork.", .branch [⟨"round", "round"⟩, ⟨"on", "on"⟩],
    .label "round", .jump "round", .label "on", .say none "The end."]
  labels := .ofList [("round", 2), ("on", 4)]

namespace Session

/-- A session whose reader has gone round until the budget was spent. -/
def spun : Session :=
  (new true).after [.begin (.ofStory .roundabout 4), .dispatch (.selectChoice 0)]

/-- The reader came to the end, began again and went round until the budget was spent. -/
def spunAgain : Session :=
  (new true).after [.begin (.ofStory .roundabout 4), .dispatch (.selectChoice 1), .dispatch .start,
    .dispatch (.selectChoice 0)]

/-- The reader takes the way to the end back. -/
def turnedBack : Session := (spunAgain.dispatch .rewind).session

/-- The reader came to the end, and an edit left no budget for the beginning. -/
def cutShort : Session :=
  (new true).after [.begin (.ofStory .roundabout 4), .dispatch (.selectChoice 1),
    .replace (.ofStory .roundabout 1), .dispatch .start]

theorem ran_spun : Ran true spun := ran_after (.new true) (by decide) (by decide +kernel)

theorem ran_spunAgain : Ran true spunAgain := ran_after (.new true) (by decide) (by decide +kernel)

/-- Who is on the roundabout is shown choices that cannot be taken, until the rewind; and when a replay and
a start fail after the end, nothing is on display, and nothing can be taken. -/
theorem refuses_iff_turnedBack :
    (Ran true spunAgain ∧ ¬ ∀ i, spunAgain.Refuses i ↔ spunAgain.state.choices.length ≤ i) ∧
      (Ran false turnedBack ∧ turnedBack.hasStory = true ∧ turnedBack.isDiverged = false ∧
        turnedBack.state.choices.length = 2 ∧ ¬ turnedBack.Refuses 1 ∧ turnedBack.Refuses 2) ∧
      Ran false cutShort ∧ cutShort.hasStory = true ∧ cutShort.isDiverged = false ∧
        cutShort.replay.result = .error (.runtime (.stepLimit 1)) ∧
        cutShort.state.choices.length = 0 ∧ ∀ i, cutShort.Refuses i := by
  have hastray : ¬ ∀ i, spunAgain.Refuses i ↔ spunAgain.state.choices.length ≤ i := fun hall =>
    absurd ((refuses_iff ran_spunAgain (by decide +kernel) (by decide +kernel)).mp hall) (by decide)
  have hturned : Ran false (spunAgain.perform (.dispatch .rewind)).session :=
    .perform ran_spunAgain rfl (by decide +kernel)
  have hcut : Ran false cutShort := ran_after (.new true) (by decide) (by decide +kernel)
  have hlength : turnedBack.state.choices.length = 2 := by decide +kernel
  have hnothing : cutShort.state.choices.length = 0 := by decide +kernel
  have hrefuses : ∀ i, turnedBack.Refuses i ↔ 2 ≤ i := by
    rw [← hlength]
    exact (refuses_iff hturned (by decide +kernel) (by decide +kernel)).mpr rfl
  have hall : ∀ i, cutShort.Refuses i ↔ 0 ≤ i := by
    rw [← hnothing]
    exact (refuses_iff hcut (by decide +kernel) (by decide +kernel)).mpr rfl
  refine ⟨⟨ran_spunAgain, hastray⟩, ⟨hturned, by decide +kernel, by decide +kernel, hlength, ?_, ?_⟩,
    hcut, by decide +kernel, by decide +kernel, by decide +kernel, hnothing, ?_⟩
  · exact fun h₁ => absurd ((hrefuses 1).mp h₁) (by decide)
  · exact (hrefuses 2).mpr (Nat.le_refl 2)
  · exact fun i => (hall i).mpr (Nat.zero_le i)

/-- What is on display cannot be taken: the story has left the fork, and the display still shows it. -/
theorem refuses_of_spun :
    Ran true spun ∧ spun.hasStory = true ∧ spun.isDiverged = false ∧ spun.disposed = false ∧
      1 < spun.state.choices.length ∧ spun.Refuses 1 ∧
      ¬ (spun.Refuses 1 ↔ spun.state.choices.length ≤ 1) := by
  have hlength : spun.state.choices.length = 2 := by decide +kernel
  have hrefuses : spun.Refuses 1 := ⟨by rfl, 0, by decide +kernel⟩
  refine ⟨ran_spun, by decide +kernel, by decide +kernel, by decide +kernel, ?_, hrefuses, ?_⟩
  · rw [hlength]
    decide
  · intro h
    have hle := h.mp hrefuses
    omega

end Session

end StoryPreview
