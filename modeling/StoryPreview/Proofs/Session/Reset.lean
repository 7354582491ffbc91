import StoryPreview.Proofs.Session.Offer
import StoryPreview.Proofs.Session.Undo
/-!
Resetting a session. A reset clears log, state and divergence and leaves the story standing where it
was. `seen_reset` says over which operations the session then goes on like a new one with the same
story at its beginning: over all of them if the story stood at no branch, and otherwise over those
that choose nothing before they restart the story. A choice before that is taken where the story
stood, and the session is then not what a replay of its log gives (`seen_reset_inHall_ne`).
-/
namespace StoryPreview

/-- The wording of a refusal tells whether any choice was on offer. -/
theorem ErrorInfo.invalidChoice_zero_ne (i : Nat) {available : Nat} (h : available ≠ 0) :
    invalidChoice i 0 ≠ invalidChoice i available := by
  intro heq
  have hmessage := congrArg (fun e => e.message.toList) heq
  simp only [invalidChoice, if_true, if_neg h, String.toList_append, List.append_assoc] at hmessage
  have hrest := List.append_cancel_left (List.append_cancel_left hmessage)
  simp at hrest

namespace Session

/-! ## What is seen of a session -/

/-- What an operation shows of a session: its answer, and then the state, the log and whether the
session has diverged. -/
structure Sight where
  answer : Except SessionError (Option Bool)
  state : State
  log : ActionLog
  diverged : Bool

def sight (r : Reply (Option Bool)) : Sight :=
  ⟨r.result, r.session.state, r.session.log, r.session.isDiverged⟩

/-- What is seen of a session while operations are performed on it, one after another. -/
def seen (s : Session) : List Operation → List Sight
  | [] => []
  | op :: ops => sight (s.perform op) :: (s.perform op).session.seen ops

/-- Whether an operation lets the story begin anew, wherever it stands, or lets it go. -/
def Operation.restarts : Operation → Bool
  | .begin _ | .dispatch .start | .replace _ | .replay | .dispose => true
  | _ => false

/-- Whether a choice comes before the first operation that restarts the story. -/
def choosesFirst : List Operation → Bool
  | [] => false
  | .dispatch (.selectChoice _) :: _ => true
  | op :: ops => !op.restarts && choosesFirst ops

/-- The session with its story at the beginning. -/
def unbegun (s : Session) : Session := { s with player := s.player.map Player.fresh }

/-- Nothing has moved the story, which stands at `p`, since the session was cleared. -/
structure Idle (p : Player) (s : Session) : Prop where
  active : s.disposed = false
  player : s.player = some p
  undiverged : s.divergedAt = none
  quiet : ∀ a ∈ s.log, a.movesStory = false

theorem Idle.unbegun {p : Player} {s : Session} (h : Idle p s) : Idle p.fresh s.unbegun where
  active := h.active
  player := by rw [Session.unbegun, h.player]; rfl
  undiverged := h.undiverged
  quiet := h.quiet

/-- The same answer, and the same session but for the place of the story, which has not moved. -/
structure GoesAlong (p : Player) (r r' : Reply (Option Bool)) : Prop where
  idle : Idle p r.session
  session : r'.session = r.session.unbegun
  result : r'.result = r.result

theorem GoesAlong.sight_eq {p : Player} {r r' : Reply (Option Bool)} (h : GoesAlong p r r') :
    sight r' = sight r := by
  unfold sight
  rw [h.session, h.result]
  rfl

/-! ## One operation -/

/-- A log that moves no story only annotates the state. -/
theorem foldLog_of_quiet {log : ActionLog} (hl : ∀ a ∈ log, a.movesStory = false) (r : Rebuilt)
    (n : Nat) : ∃ t, foldLog r n log = .ok { r with state := t } := by
  induction log generalizing r n with
  | nil => exact ⟨r.state, rfl⟩
  | cons a log ih =>
    have ha : a.movesStory = false := hl a List.mem_cons_self
    have hc : a.affectsChoice = false := Action.affectsChoice_of_not_moves ha
    obtain ⟨t, ht⟩ := ih (fun b hb => hl b (List.mem_cons_of_mem _ hb))
      { r with state := (r.state.annotate a).1 } (n + 1)
    exact ⟨t, foldLog_cons_ok.mpr ⟨_, .note (.inr ha) (by simp [hc]), ht⟩⟩

/-- An operation that restarts the story leads to the same session from every place. -/
theorem Idle.perform_of_restarts {p : Player} {s : Session} (h : Idle p s) {op : Operation}
    (hr : op.restarts = true) : s.unbegun.perform op = s.perform op := by
  have ha : ¬ s.disposed = true := by simp [h.active]
  have ha' : ¬ s.unbegun.disposed = true := ha
  cases op with
  | begin q =>
    unfold perform Session.begin
    dsimp only
    rw [if_neg ha, if_neg ha']
    rfl
  | dispatch a =>
    cases a with
    | start =>
      have hs : s.dispatch .start = s.record .start := dispatch_eq_record h.active (by simp) (.inr rfl)
      have hu : s.unbegun.dispatch .start = s.unbegun.record .start :=
        dispatch_eq_record h.active (by simp) (.inr rfl)
      unfold perform
      dsimp only
      rw [hs, hu]
      unfold record
      rw [h.player, h.unbegun.player]
      rfl
    | _ => cases hr
  | replace q =>
    unfold perform Session.replace
    dsimp only
    rw [if_neg ha, if_neg ha']
    rfl
  | replay =>
    obtain ⟨t, ht⟩ := foldLog_of_quiet h.quiet s.blank 0
    have hblank : s.unbegun.blank = s.blank := by
      unfold blank Session.unbegun
      rw [h.player]
      rfl
    unfold perform
    dsimp only
    rw [replay_of_foldLog h.active ht, replay_of_foldLog h.unbegun.active (hblank.symm ▸ ht), hblank]
    rfl
  | dispose => rfl
  | rewind => cases hr
  | reset => cases hr

/-- An annotation is recorded in the same way at every place of the story. -/
theorem Idle.goesAlong_annotation {p : Player} {s : Session} (h : Idle p s) {a : Action}
    (ha : a.movesStory = false) (hr : a ≠ .rewind) :
    GoesAlong p (s.perform (.dispatch a)) (s.unbegun.perform (.dispatch a)) := by
  have hdispatch {q : Player} {t : Session} (ht : Idle q t) :
      t.dispatch a =
        ({ t with state := (t.state.annotate a).1, log := t.log ++ [a] } : Session).changed () := by
    rw [dispatch_eq_record ht.active hr (.inl ht.undiverged), record_of_not_moves t ha]
  unfold perform
  dsimp only
  rw [hdispatch h, hdispatch h.unbegun]
  refine ⟨⟨h.active, h.player, h.undiverged, ?_⟩, rfl, rfl⟩
  intro b hb
  rcases List.mem_append.mp hb with hb | hb
  · exact h.quiet b hb
  · rw [List.mem_singleton.mp hb]
    exact ha

/-- There is nothing to undo. -/
theorem Idle.rewind {p : Player} {s : Session} (h : Idle p s) : s.rewind = s.unchanged false := by
  have hfree : ∀ a ∈ s.log, a.affectsChoice = false :=
    fun a ha => Action.affectsChoice_of_not_moves (h.quiet a ha)
  unfold Session.rewind
  rw [if_neg (by simp [h.active]), h.undiverged, Option.getD_none, ActionLog.lastChoiceBefore,
    List.take_length, ActionLog.lastChoice_of_choice_free hfree]

theorem Idle.goesAlong_rewind {p : Player} {s : Session} (h : Idle p s) :
    GoesAlong p (s.perform .rewind) (s.unbegun.perform .rewind) := by
  unfold perform
  dsimp only
  rw [h.rewind, h.unbegun.rewind]
  exact ⟨h, rfl, rfl⟩

/-- An operation that neither restarts the story nor chooses leaves it where it stands. -/
theorem Idle.goesAlong {p : Player} {s : Session} (h : Idle p s) {op : Operation}
    (hr : op.restarts = false) (hc : ∀ i, op ≠ .dispatch (.selectChoice i)) :
    GoesAlong p (s.perform op) (s.unbegun.perform op) := by
  cases op with
  | dispatch a =>
    cases a with
    | start => cases hr
    | selectChoice i => exact absurd rfl (hc i)
    | rewind =>
      have hs {q : Player} {t : Session} (ht : Idle q t) : t.dispatch .rewind = t.unchanged () := by
        unfold Session.dispatch
        rw [if_neg (by simp [ht.active]), if_pos rfl, ht.rewind]
        rfl
      unfold perform
      dsimp only
      rw [hs h, hs h.unbegun]
      exact ⟨h, rfl, rfl⟩
    | _ => exact h.goesAlong_annotation rfl (by simp)
  | rewind => exact h.goesAlong_rewind
  | reset =>
    have hs {q : Player} {t : Session} (ht : Idle q t) : t.reset =
        ({ t with log := [], state := .empty t.liveDefault, divergedAt := none } :
          Session).changed () := by
      unfold Session.reset
      rw [if_neg (by simp [ht.active])]
    unfold perform
    dsimp only
    rw [hs h, hs h.unbegun]
    exact ⟨⟨h.active, h.player, rfl, fun a ha => nomatch ha⟩, rfl, rfl⟩
  | begin q => cases hr
  | replace q => cases hr
  | replay => cases hr
  | dispose => cases hr

theorem Idle.perform_selectChoice {p : Player} {s : Session} (h : Idle p s) (i : Nat) :
    s.perform (.dispatch (.selectChoice i)) = (s.record (.selectChoice i)).map fun _ => none := by
  unfold perform
  dsimp only
  rw [dispatch_eq_record h.active (by simp) (.inl h.undiverged)]

/-- Where no choice is on offer, none is at the beginning either. -/
theorem Idle.goesAlong_selectChoice {p : Player} {s : Session} (h : Idle p s) (hp : p.choices = [])
    (i : Nat) : GoesAlong p (s.perform (.dispatch (.selectChoice i)))
      (s.unbegun.perform (.dispatch (.selectChoice i))) := by
  have hfresh : p.fresh.choices = [] := rfl
  rw [h.perform_selectChoice, h.unbegun.perform_selectChoice,
    record_refused h.player (by simp [hp]), record_refused h.unbegun.player (by simp [hfresh])]
  rw [hp, hfresh]
  refine ⟨⟨h.active, h.player, h.undiverged, ?_⟩, rfl, rfl⟩
  intro b hb
  rcases List.mem_append.mp hb with hb | hb
  · exact h.quiet b hb
  · rw [List.mem_singleton.mp hb]
    rfl

/-- Where choices are on offer, every choice tells the story from one at its beginning. -/
theorem Idle.sight_selectChoice_ne {p : Player} {s : Session} (h : Idle p s) (hp : p.choices ≠ [])
    (i : Nat) : sight (s.perform (.dispatch (.selectChoice i))) ≠
      sight (s.unbegun.perform (.dispatch (.selectChoice i))) := by
  have hlength : p.choices.length ≠ 0 := by simpa using hp
  rw [h.perform_selectChoice, h.unbegun.perform_selectChoice,
    record_refused h.unbegun.player (Nat.zero_le i)]
  intro heq
  have hanswer := congrArg Sight.answer heq
  have herrors := congrArg (fun v => v.state.errors) heq
  by_cases hi : p.choices.length ≤ i
  · rw [record_refused h.player hi] at herrors
    have hlast : [ErrorInfo.invalidChoice i p.choices.length] = [ErrorInfo.invalidChoice i 0] :=
      List.append_cancel_left herrors
    exact ErrorInfo.invalidChoice_zero_ne i hlength (List.singleton_inj.mp hlast).symm
  · have hok : (s.record (.selectChoice i)).result = .ok () := by
      cases hr : (s.record (.selectChoice i)).result with
      | ok u => rfl
      | error e => simp [sight, Reply.map, hr, Except.map, changed] at hanswer
    have hsame := errors_of_offered h.player (Nat.lt_of_not_le hi) hok
    simp [sight, Reply.map, changed, hsame, Session.unbegun] at herrors

/-! ## All operations -/

theorem choosesFirst_of_restarts {op : Operation} (hr : op.restarts = true)
    (ops : List Operation) : choosesFirst (op :: ops) = false := by
  cases op with
  | dispatch a =>
    cases a with
    | start => rfl
    | _ => cases hr
  | rewind => cases hr
  | reset => cases hr
  | _ => rfl

theorem choosesFirst_cons {op : Operation} (hr : op.restarts = false)
    (hc : ∀ i, op ≠ .dispatch (.selectChoice i)) (ops : List Operation) :
    choosesFirst (op :: ops) = choosesFirst ops := by
  rw [choosesFirst.eq_3 _ _ (fun i h => hc i h), hr]
  rfl

/-- An idle session is seen as one with its story at the beginning as long as neither chooses; at the
first choice they part, if the story stands at a branch. -/
theorem Idle.seen_eq_iff {p : Player} {s : Session} (h : Idle p s) (ops : List Operation) :
    s.seen ops = s.unbegun.seen ops ↔ p.choices = [] ∨ choosesFirst ops = false := by
  induction ops generalizing s with
  | nil => exact ⟨fun _ => .inr rfl, fun _ => rfl⟩
  | cons op ops ih =>
    have hgo (hg : GoesAlong p (s.perform op) (s.unbegun.perform op)) :
        s.seen (op :: ops) = s.unbegun.seen (op :: ops) ↔
          p.choices = [] ∨ choosesFirst ops = false := by
      rw [seen, seen, hg.sight_eq, hg.session, ← ih hg.idle, List.cons_inj_right]
    by_cases hr : op.restarts = true
    · rw [choosesFirst_of_restarts hr, seen, seen, h.perform_of_restarts hr]
      exact ⟨fun _ => .inr rfl, fun _ => rfl⟩
    · rw [Bool.not_eq_true] at hr
      by_cases hc : ∃ i, op = .dispatch (.selectChoice i)
      · obtain ⟨i, rfl⟩ := hc
        by_cases hp : p.choices = []
        · rw [hgo (h.goesAlong_selectChoice hp i)]
          exact ⟨fun _ => .inl hp, fun _ => .inl hp⟩
        · constructor
          · intro heq
            rw [seen, seen] at heq
            exact absurd (List.cons.inj heq).1 (h.sight_selectChoice_ne hp i)
          · rintro (hnil | hfirst)
            · exact absurd hnil hp
            · cases hfirst
      · rw [not_exists] at hc
        rw [choosesFirst_cons hr hc]
        exact hgo (h.goesAlong hr hc)

/-- A session that was reset goes on like a new one with the same story at its beginning, over all
operations that may follow, exactly if the story stood at no branch or nothing is chosen before the
story is restarted. -/
theorem seen_reset {s : Session} {p : Player} (ha : s.disposed = false) (hp : s.player = some p)
    (ops : List Operation) :
    s.reset.session.seen ops = (ofPlayer p.fresh s.liveDefault).seen ops ↔
      p.choices = [] ∨ choosesFirst ops = false := by
  have hreset : s.reset =
      ({ s with log := [], state := .empty s.liveDefault, divergedAt := none } :
        Session).changed () := by
    unfold Session.reset
    rw [if_neg (by simp [ha])]
  have hidle : Idle p s.reset.session := by
    rw [hreset]
    exact ⟨ha, hp, rfl, fun a ha => nomatch ha⟩
  have hnew : s.reset.session.unbegun = ofPlayer p.fresh s.liveDefault := by
    rw [hreset]
    unfold Session.unbegun ofPlayer new
    simp only [changed, hp, ha]
    rfl
  rw [← hnew]
  exact hidle.seen_eq_iff ops

/-! ## An example -/

/-- The reader in the hall stands at its branch. -/
def atHall : Player :=
  ⟨.hall [⟨"flee", "right"⟩, ⟨"open the door", "door"⟩], 100,
    ⟨5, ∅, [⟨"flee", "right"⟩, ⟨"open the door", "door"⟩]⟩⟩

theorem player_inHall : inHall.player = some atHall := by rfl

/-- After the reset the reader notes something, undoes nothing, and begins again before the first
choice. -/
theorem seen_reset_inHall :
    inHall.disposed = false ∧ inHall.player = some atHall ∧ atHall.choices ≠ [] ∧
      inHall.reset.session.seen [.dispatch (.toggleLiveUpdate false), .rewind, .replay,
          .dispatch (.selectChoice 1)] =
        (ofPlayer atHall.fresh true).seen [.dispatch (.toggleLiveUpdate false), .rewind, .replay,
          .dispatch (.selectChoice 1)] := by
  have hchoices : atHall.choices ≠ [] := by decide +kernel
  exact ⟨rfl, player_inHall, hchoices,
    (seen_reset (s := inHall) rfl player_inHall _).mpr (.inr rfl)⟩

/-- Without that the session takes a choice of the hall, which a new session refuses, and what its
reader then sees is not what a replay of its log gives. -/
theorem seen_reset_inHall_ne :
    Reached inHall ∧ inHall.player = some atHall ∧
      inHall.reset.session.seen [.dispatch (.selectChoice 1)] ≠
        (ofPlayer atHall.fresh true).seen [.dispatch (.selectChoice 1)] ∧
      (inHall.reset.session.dispatch (.selectChoice 1)).session.replay.session.state ≠
        (inHall.reset.session.dispatch (.selectChoice 1)).session.state := by
  refine ⟨reached_after (.new true) (by decide +kernel), player_inHall, ?_, by decide +kernel⟩
  intro heq
  have hstates := congrArg (List.map Sight.state) heq
  revert hstates
  decide +kernel

end Session

end StoryPreview
