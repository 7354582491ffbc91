import StoryPreview.Proofs.Session.CompileErrors
import StoryPreview.Proofs.Story.Extension
/-!
Text appended to a script keeps the reader's place. `Tracks` ties a replay on a story to the replay of
the same log on a story that extends it: they are at the same cursor, or the shorter story has ended
and the longer one has gone on. Each action keeps this (`Tracks.step`), a restart included, and so the
whole log does (`foldLog_tracks`).
-/
namespace StoryPreview

namespace Session

variable {old new : Story} {budget : Nat}

/-- A replay on a story, and one of the same log on a story that extends it. -/
inductive Tracks (old new : Story) (budget : Nat) : Rebuilt → Rebuilt → Prop
  /-- Both are at the same place. -/
  | same {c s s'} (hc : Story.Shared old new c.pending) (ht : s'.transcript = s.transcript)
      (hs : s'.choices = s.choices) :
      Tracks old new budget ⟨some ⟨old, budget, c⟩, s, none⟩ ⟨some ⟨new, budget, c⟩, s', none⟩
  /-- The shorter story has ended, and the longer one has gone on. -/
  | past {c c' s s'} (hc : c.pending = []) (hs : s.atEnd = true)
      (ht : s.transcript <+: s'.transcript) :
      Tracks old new budget ⟨some ⟨old, budget, c⟩, s, none⟩ ⟨some ⟨new, budget, c'⟩, s', none⟩

theorem Tracks.stories {r r' : Rebuilt} (h : Tracks old new budget r r') :
    ∃ c c' s s', r = ⟨some ⟨old, budget, c⟩, s, none⟩ ∧
      r' = ⟨some ⟨new, budget, c'⟩, s', none⟩ := by
  cases h with
  | same _ _ _ => exact ⟨_, _, _, _, rfl, rfl⟩
  | past _ _ _ => exact ⟨_, _, _, _, rfl, rfl⟩

/-- Runs from the same place come to replays that track each other. -/
theorem tracks_of_goOn (h : Story.Extends old new) {c : Cursor} {s s' : State} {q q' : Player}
    {passage passage' : Passage} (hc : Story.Shared old new c.pending)
    (ht : s'.transcript = s.transcript)
    (ho : (⟨old, budget, c⟩ : Player).goOn = (q, .ok passage))
    (hn : (⟨new, budget, c⟩ : Player).goOn = (q', .ok passage')) :
    Tracks old new budget ⟨some q, s.absorb passage q, none⟩
      ⟨some q', s'.absorb passage' q', none⟩ := by
  obtain ⟨c₁, rfl, hold⟩ := Player.goOn_ok.mp ho
  obtain ⟨c₂, rfl, hnew⟩ := Player.goOn_ok.mp hn
  rcases h.run hc hold hnew with ⟨rfl, rfl, hshared⟩ | ⟨hend, hpc, hentries⟩
  · refine .same hshared ?_ rfl
    simp only [State.absorb, ht]
  · refine .past hend ?_ ?_
    · have hsize : old.size ≤ c₁.pc := by simpa [Story.node?, Story.size] using hpc
      simp [State.absorb, Player.isEnded, Cursor.isWaiting, hend, hsize]
    · simp only [State.absorb, ht]
      exact (List.prefix_append_right_inj _).mpr hentries

/-- Folding one action onto both replays, when it does not make the one on the shorter story
diverge. -/
theorem Tracks.step (h : Story.Extends old new) {r₁ r₂ r₁' r₂' : Rebuilt} {a : Action} {m n : Nat}
    (ht : Tracks old new budget r₁ r₁') (ho : Folds m r₁ a r₂) (hn : Folds n r₁' a r₂')
    (hd : r₂.divergedAt = none) : Tracks old new budget r₂ r₂' := by
  have hstart : Story.Shared old new Cursor.start.pending := fun _ hc => nomatch hc
  cases ho with
  | skip hdiv ha => rw [hd] at hdiv; cases hdiv
  | note ha _ =>
    obtain ⟨c, c', s, s', rfl, rfl⟩ := ht.stories
    rw [hn.eq_of_not_moves (ha.resolve_left (Option.some_ne_none _))]
    cases ht with
    | same hc ht hs => exact .same hc (by simpa using ht) (by simpa using hs)
    | past hc hs ht => exact .past hc (by simpa using hs) (by simpa using ht)
  | start hq =>
    obtain ⟨c, c', s, s', hr, rfl⟩ := ht.stories
    cases hr
    cases hn with
    | skip hdiv _ => cases hdiv
    | note ha _ => simp [Action.movesStory] at ha
    | start hq' => exact tracks_of_goOn h hstart rfl hq hq'
  | @choose s p q i passage hi hq =>
    cases ht with
    | @same c _ s' hc ht hs =>
      cases hn with
      | skip hdiv _ => cases hdiv
      | note ha _ => simp [Action.movesStory] at ha
      | choose _ hq' =>
        obtain ⟨c₁, hc₁, hq⟩ := Player.choose_ok.mp hq
        obtain ⟨c₂, hc₂, hq'⟩ := Player.choose_ok.mp hq'
        dsimp only at hc₁ hc₂
        rw [hc.select, hc₁] at hc₂
        cases hc₂
        refine tracks_of_goOn h ?_ ht hq hq'
        rw [Story.select_pending hc₁]
        exact hstart
      | refuse hi' => exact absurd hi (Nat.not_lt.mpr hi')
    | past hc hs ht => simp [Player.choices, hc] at hi
  | refuse hi => cases hd

/-- Replays of a log that track each other to begin with still do at its end, if the one on the
shorter story does not diverge. -/
theorem foldLog_tracks (h : Story.Extends old new) {r₁ r₂ r₁' r₂' : Rebuilt} {log : ActionLog}
    {n : Nat} (ht : Tracks old new budget r₁ r₁') (ho : foldLog r₁ n log = .ok r₂)
    (hn : foldLog r₁' n log = .ok r₂') (hd : r₂.divergedAt = none) :
    Tracks old new budget r₂ r₂' := by
  induction log generalizing r₁ r₁' n with
  | nil =>
    cases ho
    cases hn
    exact ht
  | cons a log ih =>
    obtain ⟨r, ha, ho⟩ := foldLog_cons_ok.mp ho
    obtain ⟨r', ha', hn⟩ := foldLog_cons_ok.mp hn
    exact ih (ht.step h ha ha' (divergedAt_eq_none_of_foldLog ho hd)) ho hn

/-- What a reader sees of the two replays. -/
theorem Tracks.place {r r' : Rebuilt} (h : Tracks old new budget r r') :
    r'.divergedAt = none ∧ r.state.transcript <+: r'.state.transcript ∧
      (r.state.atEnd = false →
        r'.state.transcript = r.state.transcript ∧ r'.state.choices = r.state.choices) := by
  cases h with
  | same _ ht hc => exact ⟨rfl, ht ▸ List.prefix_refl _, fun _ => ⟨ht, hc⟩⟩
  | past _ hend ht =>
    refine ⟨rfl, ht, fun hrun => ?_⟩
    rw [hend] at hrun
    cases hrun

/-- Appending to a script does not move its reader: if the longer script's story takes the place of
the shorter one's, then the session stays where it is, or its story had ended and goes on. -/
theorem replace_of_appended {inc : Includes} {a b : String} {s : Session} {p : Player}
    (ha : a = "" ∨ ∃ lines, a = lines ++ "\n") (hold : Story.compile inc a = .ok old)
    (hnew : Story.compile inc (a ++ b) = .ok new) (h : Reached s) (hp : s.player = some p)
    (hstory : p.story = old) (hd : s.isDiverged = false)
    (hok : (s.replace (.ofStory new p.budget)).result = .ok ()) :
    (s.replace (.ofStory new p.budget)).session.isDiverged = false ∧
      s.state.transcript <+:
        (s.replace (.ofStory new p.budget)).session.state.transcript ∧
      (s.state.atEnd = false →
        (s.replace (.ofStory new p.budget)).session.state.transcript = s.state.transcript ∧
          (s.replace (.ofStory new p.budget)).session.state.choices = s.state.choices) := by
  have hs := settled_of_reached h
  obtain ⟨r, hr, hsession⟩ := replace_ok hs.active hok
  obtain ⟨d, hd', hdrop⟩ := hs.foldLog_dropCompileErrors
  obtain rfl : d = none := by simpa [hd] using hd'
  have hext := Story.extends_of_compile (Text.endsLine_toList ha) hold hnew
  have hstart : Tracks old new p.budget
      ⟨some (.ofStory old p.budget), .empty s.liveDefault, none⟩
      ⟨some (.ofStory new p.budget), .empty s.liveDefault, none⟩ :=
    .same (fun _ hc => nomatch hc) rfl rfl
  have hblank : s.blank = ⟨some (.ofStory old p.budget), .empty s.liveDefault, none⟩ := by
    rw [blank, hp, ← hstory]
    rfl
  rw [hblank, hp] at hdrop
  rw [hsession]
  obtain ⟨hnone, hplace⟩ := (foldLog_tracks hext hstart hdrop hr rfl).place
  exact ⟨by rw [isDiverged, hnone]; rfl, hplace⟩

end Session

/-! ## An example -/

/-- A script with one choice. -/
def gateScript : String := "A gate.\n[BRANCH choice=in label=in]\n[LABEL name=in]\nInside." ++ "\n"

def Story.gate : Story where
  nodes := #[.say none "A gate.", .branch [⟨"in", "in"⟩], .label "in", .say none "Inside."]
  labels := .ofList [("in", 2)]

/-- The story of that script with an afterword. -/
def Story.gateAndAfter : Story :=
  { Story.gate with nodes := Story.gate.nodes.push (.say none "Or not.") }

/-- Its reader, at the choice. -/
def Player.atGate : Player := ⟨.gate, 100, ⟨2, ∅, [⟨"in", "in"⟩]⟩⟩

/-- Its reader, at the end. -/
def Player.behindGate : Player := ⟨.gate, 100, ⟨4, ∅, []⟩⟩

/-- A session whose reader came to the end of the story. -/
def Session.inside : Session :=
  (Session.new true).after [.begin (.ofStory .gate 100), .dispatch (.selectChoice 0)]

/-- A session whose reader came to the end of the story and began again. -/
def Session.restarted : Session := (Session.inside.dispatch .start).session

/-- Who is at the end goes on into the afterword. It comes behind an end that the other reader has left
again, so that reader's place stays. -/
theorem Session.replace_of_appended_afterword :
    Story.compile (.ofTexts []) gateScript = .ok .gate ∧
      Story.compile (.ofTexts []) (gateScript ++ "Or not.\n") = .ok .gateAndAfter ∧
      (Reached inside ∧ inside.player = some .behindGate ∧ inside.isDiverged = false ∧
        (inside.replace (.ofStory .gateAndAfter 100)).result = .ok () ∧
        inside.state.transcriptTexts = ["A gate.", "Inside."] ∧ inside.state.atEnd = true ∧
        (inside.replace (.ofStory .gateAndAfter 100)).session.isDiverged = false ∧
        inside.state.transcript <+:
          (inside.replace (.ofStory .gateAndAfter 100)).session.state.transcript ∧
        (inside.replace (.ofStory .gateAndAfter 100)).session.state.transcriptTexts =
          ["A gate.", "Inside.", "Or not."]) ∧
      Reached .restarted ∧ restarted.player = some .atGate ∧ restarted.isDiverged = false ∧
      (restarted.replace (.ofStory .gateAndAfter 100)).result = .ok () ∧
      restarted.state.atEnd = false ∧
      (restarted.replace (.ofStory .gateAndAfter 100)).session.isDiverged = false ∧
      restarted.state.transcript <+:
        (restarted.replace (.ofStory .gateAndAfter 100)).session.state.transcript ∧
      (restarted.state.atEnd = false →
        (restarted.replace (.ofStory .gateAndAfter 100)).session.state.transcript =
            restarted.state.transcript ∧
          (restarted.replace (.ofStory .gateAndAfter 100)).session.state.choices =
            restarted.state.choices) := by
  have hold : Story.compile (.ofTexts []) gateScript = .ok .gate := by rfl
  have hnew : Story.compile (.ofTexts []) (gateScript ++ "Or not.\n") = .ok .gateAndAfter := by rfl
  have hinside : Reached inside := reached_after (.new true) (by decide +kernel)
  have hend : inside.player = some .behindGate := by rfl
  have hin : inside.isDiverged = false := by decide +kernel
  have hokInside : (inside.replace (.ofStory .gateAndAfter 100)).result = .ok () := by rfl
  obtain ⟨hdiv, hprefix, _⟩ :=
    replace_of_appended (.inr ⟨_, rfl⟩) hold hnew hinside hend rfl hin hokInside
  have hokStart : (inside.perform (.dispatch .start)).result = .ok none := by rfl
  have h : Reached .restarted := hinside.perform rfl hokStart
  have hp : restarted.player = some .atGate := by rfl
  have hd : restarted.isDiverged = false := by decide +kernel
  have hok : (restarted.replace (.ofStory .gateAndAfter 100)).result = .ok () := by rfl
  exact ⟨hold, hnew,
    ⟨hinside, hend, hin, hokInside, by decide +kernel, by decide +kernel, hdiv, hprefix,
      by decide +kernel⟩,
    h, hp, hd, hok, by decide +kernel,
    replace_of_appended (.inr ⟨_, rfl⟩) hold hnew h hp rfl hd hok⟩

end StoryPreview
