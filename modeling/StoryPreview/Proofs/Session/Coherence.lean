import StoryPreview.Proofs.Session.Failure
/-!
Coherent states. Choices and flags of a state are copied from the story whenever it has moved, and left
alone by everything else; and a story that has moved without failing waits for a choice or is at its end.
So a state fits together and fits its log (`Coherent`), whatever is done with the session and whatever
fails (`coherent_of_played`).

The proof goes over `Orderly`, which every operation keeps. It says nothing about where the story stands,
for a failed run leaves it anywhere; all that it needs of the story is that it has no loose ends.
-/
namespace StoryPreview

/-! ## One state -/

/-- The choices of a player are numbered from zero. -/
theorem Player.index_choices (p : Player) :
    p.choices.map ChoiceView.index = List.range p.choices.length := by
  have hindex : p.choices.map ChoiceView.index = p.cursor.pending.zipIdx.map Prod.snd := by
    unfold choices
    rw [List.map_map]
    rfl
  rw [hindex, length_choices_eq, List.zipIdx_map_snd, List.range_eq_range']

@[simp] theorem State.canContinue_annotate (s : State) (a : Action) :
    (s.annotate a).1.canContinue = s.canContinue := by
  cases a <;> rfl

/-- What stands in a log and is not its last action stands before it. -/
theorem ActionLog.mem_of_mem_snoc {log : ActionLog} {a b : Action} (h : a ∈ log ++ [b])
    (hne : b ≠ a) : a ∈ log :=
  (List.mem_append.mp h).resolve_right fun ha => hne (List.mem_singleton.mp ha).symm

/-- A state fits together, and with a log. -/
structure Coherent (state : State) (log : ActionLog) : Prop where
  /-- The story has gone as far as it goes without a choice. -/
  stopped : state.canContinue = false
  numbered : state.choices.map ChoiceView.index = List.range state.choices.length
  ended : state.atEnd = true → state.choices = []
  /-- A story that was begun is at its end or waits for a choice. -/
  begun : .start ∈ log → Xor (state.atEnd = true) (state.choices ≠ [])
  /-- What was undone is not in the log, and neither is the undoing. -/
  unwound : .rewind ∉ log

theorem coherent_empty (liveUpdate : Bool) : Coherent (.empty liveUpdate) [] :=
  ⟨rfl, rfl, fun _ => rfl, nofun, nofun⟩

/-- Choices and flags fit a log if they fit another one that has a start if this one has. -/
theorem Coherent.congr {s t : State} {l l' : ActionLog} (h : Coherent s l)
    (hstopped : t.canContinue = s.canContinue) (hchoices : t.choices = s.choices)
    (hended : t.atEnd = s.atEnd) (hstart : .start ∈ l' → .start ∈ l) (hrewind : .rewind ∉ l') :
    Coherent t l' := by
  refine ⟨hstopped.trans h.stopped, ?_, ?_, fun hl => ?_, hrewind⟩
  · rw [hchoices]
    exact h.numbered
  · rw [hchoices, hended]
    exact h.ended
  · rw [hchoices, hended]
    exact h.begun (hstart hl)

/-- A note leaves choices and flags alone. -/
theorem Coherent.annotate {s : State} {log : ActionLog} (h : Coherent s log) {a : Action}
    (hstart : a ≠ .start) (hrewind : a ≠ .rewind) : Coherent (s.annotate a).1 (log ++ [a]) :=
  h.congr (by simp) (by simp) (by simp) (fun hl => ActionLog.mem_of_mem_snoc hl hstart)
    fun hl => h.unwound (ActionLog.mem_of_mem_snoc hl hrewind)

/-- A story that has gone on leaves a state that fits every log. -/
theorem coherent_of_goOn {p q : Player} {passage : Passage} (hp : p.story.Closed)
    (h : p.goOn = (q, .ok passage)) (s : State) {log : ActionLog} (hlog : .rewind ∉ log) :
    Coherent (s.absorb passage q) log := by
  obtain ⟨hstopped, hxor⟩ := Player.stopped_of_goOn hp h
  refine ⟨hstopped, q.index_choices, fun hended => ?_, fun _ => hxor, hlog⟩
  by_contra hchoices
  exact (xor_iff_iff_not.mp hxor).mp hended hchoices

theorem coherent_of_choose {p q : Player} {i : Nat} {passage : Passage} (hp : p.story.Closed)
    (h : p.choose i = (q, .ok passage)) (s : State) {log : ActionLog} (hlog : .rewind ∉ log) :
    Coherent (s.absorb passage q) log := by
  obtain ⟨c, _, hgo⟩ := Player.choose_ok.mp h
  exact coherent_of_goOn (p := { p with cursor := c }) hp hgo s hlog

namespace Session

/-! ## One replay -/

/-- The story has no loose ends, if there is one. -/
def Sound (p : Option Player) : Prop := ∀ q, p = some q → q.story.Closed

theorem Sound.of_fresh {p q : Option Player} (h : Sound p)
    (hfresh : q.map Player.fresh = p.map Player.fresh) : Sound q := by
  rintro q rfl
  cases p with
  | none => cases hfresh
  | some p =>
    have hsame : q.fresh = p.fresh := by simpa using hfresh
    have hstory : q.fresh.story = p.fresh.story := congrArg Player.story hsame
    show q.fresh.story.Closed
    rw [hstory]
    exact h p rfl

theorem eq_none_of_fresh {p q : Option Player} (hfresh : q.map Player.fresh = p.map Player.fresh)
    (hq : q = none) : p = none := by
  simpa [hq] using hfresh.symm

/-- An action that a replay folds leaves a state that fits the log so far. -/
theorem coherent_of_folds {n : Nat} {r r' : Rebuilt} {a : Action} {log : ActionLog}
    (h : Folds n r a r') (hr : Sound r.player) (hs : Coherent r.state log) (hrewind : a ≠ .rewind)
    (hstart : r.player = none → a ≠ .start) : Coherent r'.state (log ++ [a]) := by
  have hlog : Action.rewind ∉ log ++ [a] := fun hl =>
    hs.unwound (ActionLog.mem_of_mem_snoc hl hrewind)
  have hsame (hne : a ≠ .start) (hl : Action.start ∈ log ++ [a]) : Action.start ∈ log :=
    ActionLog.mem_of_mem_snoc hl hne
  cases h with
  | skip hd ha =>
    have hne : a ≠ .start := by rintro rfl; cases ha
    exact hs.congr rfl rfl rfl (hsame hne) hlog
  | note ha hd =>
    have hne : a ≠ .start := by
      rcases ha with hnone | hm
      · exact hstart hnone
      · rintro rfl
        cases hm
    exact hs.annotate hne hrewind
  | @start s d p q passage hq => exact coherent_of_goOn (p := p.fresh) (hr p rfl) hq _ hlog
  | choose hi hq => exact coherent_of_choose (hr _ rfl) hq _ hlog
  | refuse hi => exact hs.congr rfl rfl rfl (hsame nofun) hlog

theorem coherent_of_foldLog {n : Nat} {r r' : Rebuilt} {log done : ActionLog}
    (h : foldLog r n log = .ok r') (hr : Sound r.player) (hs : Coherent r.state done)
    (hrewind : .rewind ∉ log) (hstart : r.player = none → .start ∉ log) :
    Coherent r'.state (done ++ log) := by
  induction log generalizing r n done with
  | nil =>
    cases h
    rwa [List.append_nil]
  | cons a log ih =>
    obtain ⟨r₁, h₁, h₂⟩ := foldLog_cons_ok.mp h
    have hfresh : r₁.player.map Player.fresh = r.player.map Player.fresh :=
      fresh_foldLog (foldLog_of_folds h₁)
    have hs₁ : Coherent r₁.state (done ++ [a]) := by
      refine coherent_of_folds h₁ hr hs ?_ fun hnone => ?_
      · rintro rfl
        exact hrewind List.mem_cons_self
      · rintro rfl
        exact hstart hnone List.mem_cons_self
    have hrest := ih h₂ (hr.of_fresh hfresh) hs₁ (fun hl => hrewind (List.mem_cons_of_mem a hl))
      fun hnone hl => hstart (eq_none_of_fresh hfresh hnone) (List.mem_cons_of_mem a hl)
    rwa [List.append_assoc, List.singleton_append] at hrest

/-! ## Operations -/

/-- What every operation keeps of a session. -/
structure Orderly (s : Session) : Prop where
  coherent : Coherent s.state s.log
  sound : Sound s.player
  /-- A start is logged for a story only, and a session that is in use keeps its story. -/
  story : s.disposed = false → .start ∈ s.log → s.player ≠ none

/-- A session may lose a part of its log, and forget where it diverged. -/
theorem Orderly.withLog {s : Session} (h : Orderly s) {log : ActionLog} (hlog : ∀ a ∈ log, a ∈ s.log)
    (d : Option Nat) : Orderly { s with log := log, divergedAt := d } :=
  ⟨h.coherent.congr rfl rfl rfl (hlog _) fun hl => h.coherent.unwound (hlog _ hl), h.sound,
    fun ha hl => h.story ha (hlog _ hl)⟩

theorem Orderly.rebuild {s t : Session} (h : Orderly s) (ha : s.disposed = false)
    (hrebuild : s.rebuild = .ok t) : Orderly t := by
  obtain ⟨r, hfold, rfl⟩ := rebuild_ok.mp hrebuild
  have hfresh : r.player.map Player.fresh = s.player.map Player.fresh := by
    rw [fresh_foldLog hfold, blank, Option.map_map]
    rfl
  have hblank : s.blank.player.map Player.fresh = s.player.map Player.fresh := by
    rw [blank, Option.map_map]
    rfl
  refine ⟨?_, h.sound.of_fresh hfresh, fun _ hl hnone => h.story ha hl (eq_none_of_fresh hfresh hnone)⟩
  have hcoherent := coherent_of_foldLog hfold (h.sound.of_fresh hblank)
    (coherent_empty s.liveDefault) h.coherent.unwound
    fun hnone hl => h.story ha hl (eq_none_of_fresh hblank hnone)
  rwa [List.nil_append] at hcoherent

theorem Orderly.replay {s : Session} (h : Orderly s) : Orderly s.replay.session := by
  unfold Session.replay
  split
  · exact h
  · rename_i ha
    split
    · rename_i t ht
      exact h.rebuild (by simpa using ha) ht
    · exact h

theorem Orderly.rewind {s : Session} (h : Orderly s) : Orderly s.rewind.session := by
  unfold Session.rewind
  split
  · exact h
  · split
    · exact h
    · rename_i position _
      exact (h.withLog (fun a ha => List.mem_of_mem_take ha) s.divergedAt).replay

/-- Where a session has diverged does not matter to what it records. -/
theorem record_withDivergedAt (s : Session) (a : Action) (d : Option Nat) :
    (({ s with divergedAt := d } : Session).record a).result = (s.record a).result ∧
      (({ s with divergedAt := d } : Session).record a).session =
        { (s.record a).session with divergedAt := d } := by
  obtain ⟨player, log, state, liveDefault, divergedAt, disposed⟩ := s
  unfold record
  cases player with
  | none =>
    dsimp only
    split <;> exact ⟨rfl, rfl⟩
  | some p =>
    dsimp only
    cases state.apply p a with
    | mk q result => cases result <;> exact ⟨rfl, rfl⟩

/-- What is recorded was done as a replay that has not diverged folds it, also in a diverged session. -/
theorem record_folds {s : Session} {a : Action} (hok : (s.record a).result = .ok ()) :
    ∃ q t, (s.record a).session =
        { s with player := q, state := t, log := s.log ++ [logged s.player a] } ∧
      Folds 0 ⟨s.player, s.state, none⟩ (logged s.player a) ⟨q, t, none⟩ := by
  obtain ⟨hresult, _⟩ := record_withDivergedAt s a none
  obtain ⟨q, t, hsession, hfolds⟩ := record_ok (hresult.trans hok) (.inl rfl)
  obtain ⟨_, hback⟩ := record_withDivergedAt { s with divergedAt := none } a s.divergedAt
  refine ⟨q, t, ?_, hfolds 0⟩
  rw [hsession] at hback
  exact hback

theorem logged_cases (p : Option Player) (a : Action) :
    logged p a = a ∨ ∃ errors, logged p a = .recordErrors errors := by
  cases a with
  | selectChoice i =>
    by_cases hi : (offered p).length ≤ i
    · exact .inr ⟨_, if_pos hi⟩
    · exact .inl (if_neg hi)
  | _ => exact .inl rfl

theorem logged_ne_rewind (p : Option Player) {a : Action} (h : a ≠ .rewind) :
    logged p a ≠ .rewind := by
  rcases logged_cases p a with heq | ⟨errors, heq⟩ <;> rw [heq]
  · exact h
  · exact nofun

/-- Without a story no start is recorded. -/
theorem logged_ne_start {s : Session} {a : Action} (hok : (s.record a).result = .ok ())
    (hnone : s.player = none) : logged s.player a ≠ .start := by
  rcases logged_cases s.player a with heq | ⟨errors, heq⟩ <;> rw [heq]
  · rintro rfl
    unfold record at hok
    rw [hnone] at hok
    cases hok
  · exact nofun

/-- Recording keeps a session orderly also if the story fails: then only the story has moved. -/
theorem Orderly.record {s : Session} (h : Orderly s) {a : Action} (hrewind : a ≠ .rewind) :
    Orderly (s.record a).session := by
  cases hr : (s.record a).result with
  | error e =>
    obtain ⟨q, hrecord, _, hfresh, _⟩ := record_error hr
    rw [hrecord]
    exact ⟨h.coherent, h.sound.of_fresh hfresh, fun ha hl hnone =>
      h.story ha hl (eq_none_of_fresh hfresh hnone)⟩
  | ok u =>
    obtain ⟨q, t, hrecord, hfolds⟩ := record_folds hr
    have hfresh : q.map Player.fresh = s.player.map Player.fresh :=
      fresh_foldLog (foldLog_of_folds hfolds)
    rw [hrecord]
    refine ⟨?_, h.sound.of_fresh hfresh, fun ha hl hq => ?_⟩
    · exact coherent_of_folds hfolds h.sound h.coherent (logged_ne_rewind _ hrewind)
        (logged_ne_start hr)
    · rcases List.mem_append.mp hl with hl | hl
      · exact h.story ha hl (eq_none_of_fresh hfresh hq)
      · exact logged_ne_start hr (eq_none_of_fresh hfresh hq) (List.mem_singleton.mp hl).symm

theorem mem_of_mem_dropChoicesFrom {log : ActionLog} {position : Nat} {a : Action}
    (h : a ∈ log.dropChoicesFrom position) : a ∈ log := by
  unfold ActionLog.dropChoicesFrom at h
  rcases List.mem_append.mp h with h | h
  · exact List.mem_of_mem_take h
  · exact List.mem_of_mem_drop (List.mem_filter.mp h).1

theorem Orderly.dispatch {s : Session} (h : Orderly s) (a : Action) :
    Orderly (s.dispatch a).session := by
  unfold Session.dispatch
  split
  · exact h
  · rename_i ha
    split
    · exact h.rewind
    · rename_i hrewind
      split
      · -- The divergence is cleared away first, and stays so if the choice then fails.
        rename_i position _ _
        have hcleared : Orderly { s with
            log := s.log.dropChoicesFrom position, divergedAt := none } :=
          h.withLog (fun b => mem_of_mem_dropChoicesFrom) none
        dsimp only
        split
        · rename_i t ht
          exact (hcleared.rebuild (by simpa using ha) ht).record hrewind
        · exact hcleared
      · exact h.record hrewind

/-- A session without a log in which nothing is shown. -/
theorem orderly_cleared {s : Session} (hsound : Sound s.player) :
    Orderly { s with log := [], state := .empty s.liveDefault, divergedAt := none } :=
  ⟨coherent_empty s.liveDefault, hsound, nofun⟩

theorem Orderly.begin {s : Session} (h : Orderly s) {p : Player} (hp : p.story.Closed) :
    Orderly (s.begin p).session := by
  unfold Session.begin
  split
  · exact h
  · have hsound : Sound (some p) := by rintro q ⟨⟩; exact hp
    exact (orderly_cleared (s := { s with player := some p }) hsound).dispatch .start

theorem mem_of_mem_dropCompileErrors {log : ActionLog} {a : Action}
    (ha : ∀ errors, a ≠ .recordErrors errors) (h : a ∈ log.dropCompileErrors) : a ∈ log := by
  obtain ⟨b, hb, hleft⟩ := List.mem_filterMap.mp h
  unfold ActionLog.withoutCompileErrors at hleft
  split at hleft
  · dsimp only at hleft
    split at hleft <;> cases hleft
    exact absurd rfl (ha _)
  · cases hleft
    exact hb

theorem Orderly.replace {s : Session} (h : Orderly s) {p : Player} (hp : p.story.Closed) :
    Orderly (s.replace p).session := by
  unfold Session.replace
  split
  · exact h
  · have hsound : Sound (some p) := by rintro q ⟨⟩; exact hp
    have hput : Orderly { s with player := some p, log := s.log.dropCompileErrors } :=
      ⟨h.coherent.congr rfl rfl rfl (mem_of_mem_dropCompileErrors nofun) fun hl =>
        h.coherent.unwound (mem_of_mem_dropCompileErrors nofun hl), hsound, fun _ _ => nofun⟩
    exact hput.replay

theorem Orderly.reset {s : Session} (h : Orderly s) : Orderly s.reset.session := by
  unfold Session.reset
  split
  · exact h
  · exact orderly_cleared h.sound

/-- What was shown last stays. -/
theorem Orderly.dispose {s : Session} (h : Orderly s) : Orderly s.dispose.session :=
  ⟨h.coherent, nofun, nofun⟩

/-- The story that an operation brings along. -/
def Operation.player? : Operation → Option Player
  | .begin p | .replace p => some p
  | _ => none

theorem Orderly.perform {s : Session} (h : Orderly s) {op : Operation} (hop : Sound op.player?) :
    Orderly (s.perform op).session := by
  cases op with
  | begin p => exact h.begin (hop p rfl)
  | dispatch a => exact h.dispatch a
  | rewind => exact h.rewind
  | replace p => exact h.replace (hop p rfl)
  | replay => exact h.replay
  | reset => exact h.reset
  | dispose => exact h.dispose

/-! ## All operations -/

end Session

/-- An operation shows no state but the one after it. -/
theorem Reply.Shows.eq_state {s : Session} {r : Reply α} (h : r.Shows s) {state : State}
    (hstate : state ∈ r.shown) : state = r.session.state := by
  unfold Shows at h
  split at h
  · rcases h with hone | ⟨_, hnone⟩
    · rw [hone] at hstate
      exact List.mem_singleton.mp hstate
    · rw [hnone] at hstate
      cases hstate
  · rw [h] at hstate
    cases hstate

namespace Session

theorem eq_state_of_shown (s : Session) {op : Operation} {state : State}
    (h : state ∈ (s.perform op).shown) : state = (s.perform op).session.state := by
  cases op with
  | begin p => exact ((shows_begin s p).map _).eq_state h
  | dispatch a => exact ((shows_dispatch s a).map _).eq_state h
  | rewind => exact ((shows_rewind s).map _).eq_state h
  | replace p => exact ((shows_replace s p).map _).eq_state h
  | replay => exact ((shows_replay s).map _).eq_state h
  | reset => exact ((shows_reset s).map _).eq_state h
  | dispose => cases h

end Session

/-- A player, wherever it is, of a story that a compile gave. -/
def Player.Compiled (p : Player) : Prop :=
  ∃ inc source, inc.FromTexts ∧ Story.compile inc source = .ok p.story

theorem Player.Compiled.closed {p : Player} (h : p.Compiled) : p.story.Closed := by
  obtain ⟨inc, source, hinc, hcompile⟩ := h
  exact Story.closed_of_compile hinc hcompile

namespace Session

/-- The sessions over compiled stories that operations lead to, all of them, whether or not they
succeed. -/
inductive Played : Session → Prop
  | new (liveDefault : Bool) : Played (.new liveDefault)
  | ofPlayer {p : Player} (hp : p.Compiled) (liveDefault : Bool) : Played (.ofPlayer p liveDefault)
  | perform {s : Session} {op : Operation} (h : Played s)
      (hop : ∀ p, op.player? = some p → p.Compiled) : Played (s.perform op).session

theorem orderly_of_played {s : Session} (h : Played s) : Orderly s := by
  induction h with
  | new liveDefault => exact ⟨coherent_empty liveDefault, nofun, nofun⟩
  | ofPlayer hp liveDefault =>
    refine ⟨coherent_empty liveDefault, ?_, nofun⟩
    rintro q ⟨⟩
    exact hp.closed
  | perform _ hop ih => exact ih.perform fun p hp => (hop p hp).closed

/-- Whatever is done with a session over compiled stories, and whether or not it succeeds, state and log
are coherent, and so is every state that the observer is shown on the way, with the log of that time. -/
theorem coherent_of_played {s : Session} (h : Played s) :
    Coherent s.state s.log ∧
      ∀ op : Operation, (∀ p, op.player? = some p → p.Compiled) →
        ∀ state ∈ (s.perform op).shown, Coherent state (s.perform op).session.log := by
  have hs := orderly_of_played h
  refine ⟨hs.coherent, fun op hop state hstate => ?_⟩
  have hafter := hs.perform fun p hp => (hop p hp).closed
  rw [eq_state_of_shown s hstate]
  exact hafter.coherent

/-! ## An example -/

theorem played_after {s : Session} (h : Played s) {ops : List Operation}
    (hops : ∀ op ∈ ops, ∀ p, op.player? = some p → p.Compiled) : Played (s.after ops) := by
  induction ops generalizing s with
  | nil => exact h
  | cons op ops ih =>
    exact ih (.perform h (hops op List.mem_cons_self)) fun op' h' =>
      hops op' (List.mem_cons_of_mem op h')

theorem compiled_roundabout (budget : Nat) : (Player.ofStory .roundabout budget).Compiled := by
  refine ⟨.ofTexts [], "A fork.\n[BRANCH choice=round choice=on]\n[LABEL name=round]\n" ++
    "[JUMP label=round]\n[LABEL name=on]\nThe end.", Includes.fromTexts_ofTexts [], ?_⟩
  rfl

/-- The reader goes round, which fails, notes something, begins again, takes the other way, and loses the
budget in an edit, which fails as well. -/
def giddy : List Operation :=
  [.begin (.ofStory .roundabout 4), .dispatch (.selectChoice 0), .dispatch (.toggleLiveUpdate false),
    .rewind, .dispatch .start, .dispatch (.selectChoice 1), .replace (.ofStory .roundabout 1)]

theorem played_giddy : Played ((new true).after giddy) := by
  refine played_after (.new true) fun op hop p hp => ?_
  simp only [giddy, List.mem_cons, List.not_mem_nil, or_false] at hop
  rcases hop with rfl | rfl | rfl | rfl | rfl | rfl | rfl
  all_goals cases hp
  all_goals exact compiled_roundabout _

/-- The display still shows the end, and after a reset nothing. -/
theorem coherent_giddy :
    Played ((new true).after giddy) ∧
      (∃ e, (((new true).after giddy).perform .replay).result = .error e) ∧
      ((new true).after giddy).log = [.start, .toggleLiveUpdate false, .start, .selectChoice 1] ∧
      ((new true).after giddy).state.atEnd = true ∧
      Coherent ((new true).after giddy).state ((new true).after giddy).log ∧
      ∃ state, (((new true).after giddy).perform .reset).shown = [state] ∧
        state.atEnd = false ∧ Coherent state [] := by
  obtain ⟨hcoherent, hshown⟩ := coherent_of_played played_giddy
  refine ⟨played_giddy, ⟨.runtime (.stepLimit 1), by decide +kernel⟩, by decide +kernel, by decide +kernel,
    hcoherent, .empty true, by decide +kernel, rfl, ?_⟩
  exact hshown .reset nofun (.empty true) (by decide +kernel)

end Session

end StoryPreview
