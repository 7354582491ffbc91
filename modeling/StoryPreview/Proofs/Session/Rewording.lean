import StoryPreview.Proofs.Session.CompileErrors
import StoryPreview.Proofs.Story.Rewording
/-!
Rewording a story keeps the reader's place. The replay of a log on a story and its replay on one that
says it differently are alike after every action (`Alike.step`, `foldLog_alike`), so a session goes over
to the new wording without a failure, and all that changes are the words (`replace_of_reworded`).
-/
namespace StoryPreview

/-- States of sessions in the same place: as much is shown, and the errors are the same. -/
structure State.Alike (s s' : State) : Prop where
  transcript : s'.transcript.length = s.transcript.length
  choices : s'.choices.length = s.choices.length
  errors : s'.errors = s.errors
  events : s'.events.length = s.events.length
  liveUpdate : s'.liveUpdate = s.liveUpdate
  canContinue : s'.canContinue = s.canContinue
  atEnd : s'.atEnd = s.atEnd

theorem State.Alike.refl (s : State) : s.Alike s := ⟨rfl, rfl, rfl, rfl, rfl, rfl, rfl⟩

theorem State.Alike.annotate {s s' : State} (h : s.Alike s') (a : Action) :
    (s.annotate a).1.Alike (s'.annotate a).1 := by
  cases a with
  | toggleLiveUpdate enabled => exact { h with liveUpdate := rfl }
  | recordErrors errors => exact { h with errors := congrArg (· ++ errors) h.errors }
  | recordEvents events =>
    refine { h with events := ?_ }
    show (s'.events ++ events).length = (s.events ++ events).length
    rw [List.length_append, List.length_append, h.events]
  | _ => exact h

namespace Session

variable {old new : Story} {budget : Nat}

/-- A replay on a story, and one in the same place on a story that says it differently. -/
inductive Alike (old new : Story) (budget : Nat) : Rebuilt → Rebuilt → Prop
  | intro {c c' s s' d} (hc : c.Alike c') (hs : s.Alike s') :
      Alike old new budget ⟨some ⟨old, budget, c⟩, s, d⟩ ⟨some ⟨new, budget, c'⟩, s', d⟩

theorem Alike.seen {r r' : Rebuilt} (h : Alike old new budget r r') :
    r'.divergedAt = r.divergedAt ∧ r.state.Alike r'.state := by
  cases h with
  | intro _ hs => exact ⟨rfl, hs⟩

theorem length_choices {c c' : Cursor} (hc : c.Alike c') :
    (⟨new, budget, c'⟩ : Player).choices.length = (⟨old, budget, c⟩ : Player).choices.length := by
  simp [Player.choices, hc.length_pending]

/-- What a run puts out and where it gets to show alike. -/
theorem absorb_alike (h : Story.Rewords old new) {c c' : Cursor} (hc : c.Alike c') {s s' : State}
    (hs : s.Alike s') {p p' : Passage} (hp : p.Alike p') :
    (s.absorb p ⟨old, budget, c⟩).Alike (s'.absorb p' ⟨new, budget, c'⟩) where
  transcript := by
    show (s'.transcript ++ p'.entries).length = (s.transcript ++ p.entries).length
    rw [List.length_append, List.length_append, hs.transcript, hp.entries]
  choices := length_choices hc
  errors := hs.errors
  events := by
    show (s'.events ++ p'.events).length = (s.events ++ p.events).length
    rw [List.length_append, List.length_append, hs.events, hp.events]
  liveUpdate := hs.liveUpdate
  canContinue := by
    show (!c'.isWaiting && decide (c'.pc < new.size)) = (!c.isWaiting && decide (c.pc < old.size))
    rw [hc.isWaiting, hc.pc, h.size]
  atEnd := by
    show (!c'.isWaiting && decide (new.size ≤ c'.pc)) = (!c.isWaiting && decide (old.size ≤ c.pc))
    rw [hc.isWaiting, hc.pc, h.size]

/-- Going on from places that are alike. -/
theorem goOn_alike (h : Story.Rewords old new) {c c' : Cursor} (hc : c.Alike c') {q : Player}
    {passage : Passage} (hq : (⟨old, budget, c⟩ : Player).goOn = (q, .ok passage)) :
    ∃ d d' passage', q = ⟨old, budget, d⟩ ∧ d.Alike d' ∧ passage.Alike passage' ∧
      (⟨new, budget, c'⟩ : Player).goOn = (⟨new, budget, d'⟩, .ok passage') := by
  obtain ⟨d, rfl, hrun⟩ := Player.goOn_ok.mp hq
  obtain ⟨d', passage', hrun', hd, hpassage⟩ := h.run hc hrun
  exact ⟨d, d', passage', rfl, hd, hpassage, Player.goOn_ok.mpr ⟨d', rfl, hrun'⟩⟩

/-- An action that folds on a story folds on one that says it differently. -/
theorem Alike.step (h : Story.Rewords old new) {r₁ r₂ r₁' : Rebuilt} {a : Action} {n : Nat}
    (hr : Alike old new budget r₁ r₁') (hfold : Folds n r₁ a r₂) :
    ∃ r₂', Folds n r₁' a r₂' ∧ Alike old new budget r₂ r₂' := by
  obtain @⟨c, c', s, s', d, hc, hs⟩ := hr
  have hlength : (⟨new, budget, c'⟩ : Player).choices.length =
      (⟨old, budget, c⟩ : Player).choices.length := length_choices hc
  cases hfold with
  | skip hd ha => exact ⟨_, .skip hd ha, .intro hc hs⟩
  | note ha hd =>
    have ha : a.movesStory = false := ha.resolve_left (Option.some_ne_none _)
    exact ⟨_, .note (.inr ha) hd, .intro hc (hs.annotate a)⟩
  | start hq =>
    obtain ⟨c₁, c₁', passage', rfl, hc₁, hpassage, hq'⟩ := goOn_alike h (.refl .start) hq
    have hblank : ({ s with transcript := [] } : State).Alike { s' with transcript := [] } :=
      { hs with transcript := rfl }
    exact ⟨_, .start hq', .intro hc₁ (absorb_alike h hc₁ hblank hpassage)⟩
  | choose hi hq =>
    obtain ⟨c₁, hselect, hgo⟩ := Player.choose_ok.mp hq
    obtain ⟨c₁', hselect', hc₁⟩ := h.select hc hselect
    obtain ⟨c₂, c₂', passage', rfl, hc₂, hpassage, hgo'⟩ := goOn_alike h hc₁ hgo
    rw [← hlength] at hi
    exact ⟨_, .choose hi (Player.choose_ok.mpr ⟨c₁', hselect', hgo'⟩),
      .intro hc₂ (absorb_alike h hc₂ hs hpassage)⟩
  | refuse hi =>
    rw [← hlength] at hi
    refine ⟨_, .refuse hi, .intro hc { hs with errors := ?_ }⟩
    rw [hs.errors, hlength]

/-- A log that folds on a story folds on one that says it differently, to the same place. -/
theorem foldLog_alike (h : Story.Rewords old new) {r₁ r₂ r₁' : Rebuilt} {log : ActionLog} {n : Nat}
    (hr : Alike old new budget r₁ r₁') (hfold : foldLog r₁ n log = .ok r₂) :
    ∃ r₂', foldLog r₁' n log = .ok r₂' ∧ Alike old new budget r₂ r₂' := by
  induction log generalizing r₁ r₁' n with
  | nil =>
    cases hfold
    exact ⟨r₁', rfl, hr⟩
  | cons a log ih =>
    obtain ⟨r, ha, hlog⟩ := foldLog_cons_ok.mp hfold
    obtain ⟨r', ha', hr⟩ := hr.step h ha
    obtain ⟨r₂', hlog', hr₂⟩ := ih hr hlog
    exact ⟨r₂', foldLog_cons_ok.mpr ⟨r', ha', hlog'⟩, hr₂⟩

/-- Rewording a story never loses the reader's place. If a story that says the same differently takes
the place of the story of a session, within the same budget, then that succeeds, the session has
diverged or not as before, as much is shown as before, and only errors of compiling are gone. -/
theorem replace_of_reworded {s : Session} {p q : Player} (hwords : Story.Rewords p.story q.story)
    (hbudget : q.budget = p.budget) (h : Reached s) (hp : s.player = some p) :
    (s.replace q).result = .ok () ∧
      (s.replace q).session.isDiverged = s.isDiverged ∧
      (s.replace q).session.state.atEnd = s.state.atEnd ∧
      (s.replace q).session.state.liveUpdate = s.state.liveUpdate ∧
      (s.replace q).session.state.choices.length = s.state.choices.length ∧
      (s.replace q).session.state.transcript.length = s.state.transcript.length ∧
      (s.replace q).session.state.events.length = s.state.events.length ∧
      (s.replace q).session.state.errors = s.state.errors.filter fun e => !e.kind.isCompile := by
  have hs := settled_of_reached h
  obtain ⟨d, hd, hdrop⟩ := hs.foldLog_dropCompileErrors
  have hstart : Alike p.story q.story p.budget s.blank
      ⟨some q.fresh, .empty s.liveDefault, none⟩ := by
    rw [blank, hp]
    unfold Player.fresh
    rw [Option.map_some, hbudget]
    exact .intro (.refl _) (.refl _)
  obtain ⟨r, hr, halike⟩ := foldLog_alike hwords hstart hdrop
  rw [replace_of_foldLog hs.active hr]
  obtain ⟨hdiverged, hstate⟩ := halike.seen
  have hsame : r.divergedAt.isSome = s.isDiverged := (congrArg Option.isSome hdiverged).trans hd
  exact ⟨rfl, hsame, hstate.atEnd, hstate.liveUpdate, hstate.choices, hstate.transcript,
    hstate.events, hstate.errors⟩

end Session

/-! ## An example -/

/-- The hall without its door, in other words. -/
def Story.retoldHall : Story where
  nodes := #[.say (some "Guide") "Two ways.", .branch [⟨"left", "left"⟩, ⟨"right", "right"⟩],
    .label "left", .say none "Columns.", .branch [⟨"run", "right"⟩],
    .label "door", .say (some "Guide") "Nothing here.", .label "right", .say none "That is all."]
  labels := .ofList [("left", 2), ("door", 5), ("right", 7)]

theorem Story.rewords_retoldHall : Rewords (.hall [⟨"flee", "right"⟩]) .retoldHall where
  nodes := .cons (.say ..) (.cons (.branch rfl) (.cons (.same _) (.cons (.say ..)
    (.cons (.branch rfl) (.cons (.same _) (.cons (.say ..) (.cons (.same _)
      (.cons (.say ..) .nil))))))))
  labelIndex? := fun _ => rfl

/-- The reader in the hall without its door. -/
def Player.inShutHall : Player := { shutHall with cursor := ⟨5, ∅, [⟨"flee", "right"⟩]⟩ }

/-- A session that has diverged, and since then a compile has failed. -/
def Session.strayedAndBroken : Session :=
  Session.strayed.after [.dispatch (.recordErrors [⟨.compile, "line 2: Empty command", some 2⟩])]

/-- It stays diverged, and only the compile error goes. -/
theorem Session.replace_of_reworded_strayed :
    Story.Rewords Player.inShutHall.story .retoldHall ∧ Reached .strayedAndBroken ∧
      strayedAndBroken.player = some .inShutHall ∧ strayedAndBroken.isDiverged = true ∧
      strayedAndBroken.state.errors.length = 3 ∧
      (strayedAndBroken.replace (.ofStory .retoldHall 100)).result = .ok () ∧
      (strayedAndBroken.replace (.ofStory .retoldHall 100)).session.isDiverged =
        strayedAndBroken.isDiverged ∧
      (strayedAndBroken.replace (.ofStory .retoldHall 100)).session.state.atEnd =
        strayedAndBroken.state.atEnd ∧
      (strayedAndBroken.replace (.ofStory .retoldHall 100)).session.state.liveUpdate =
        strayedAndBroken.state.liveUpdate ∧
      (strayedAndBroken.replace (.ofStory .retoldHall 100)).session.state.choices.length =
        strayedAndBroken.state.choices.length ∧
      (strayedAndBroken.replace (.ofStory .retoldHall 100)).session.state.transcript.length =
        strayedAndBroken.state.transcript.length ∧
      (strayedAndBroken.replace (.ofStory .retoldHall 100)).session.state.events.length =
        strayedAndBroken.state.events.length ∧
      (strayedAndBroken.replace (.ofStory .retoldHall 100)).session.state.errors =
        strayedAndBroken.state.errors.filter fun e => !e.kind.isCompile := by
  have h : Reached .strayedAndBroken := reached_after reached_strayed (by decide +kernel)
  have hp : strayedAndBroken.player = some .inShutHall := by rfl
  exact ⟨Story.rewords_retoldHall, h, hp, by decide +kernel, by decide +kernel,
    replace_of_reworded (p := .inShutHall) (q := .ofStory .retoldHall 100)
      Story.rewords_retoldHall rfl h hp⟩

end StoryPreview
