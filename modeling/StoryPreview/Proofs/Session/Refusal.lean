import StoryPreview.Proofs.Session.Dispatch
/-!
Replays that diverge. At the first choice that its story refuses a replay records the error of that choice,
and it passes over all choices behind it. That comes to the replay of a log with the error in the place
of the choice and without the choices behind it (`ActionLog.resolve`), and such a replay does not
diverge (`replay_of_diverged`).
-/
namespace StoryPreview

/-- The log with the error of a refused choice in the place of the choice, and without the choices behind
it. -/
def ActionLog.resolve (log : ActionLog) (n i available : Nat) : ActionLog :=
  log.take n ++ .recordErrors [.invalidChoice i available] ::
    (log.drop (n + 1)).filter fun a => !a.affectsChoice

theorem ActionLog.resolve_length (l₁ : ActionLog) (a : Action) (l₂ : ActionLog) (i available : Nat) :
    ActionLog.resolve (l₁ ++ a :: l₂) l₁.length i available =
      l₁ ++ .recordErrors [.invalidChoice i available] :: l₂.filter fun a => !a.affectsChoice := by
  unfold resolve
  rw [List.take_left, ← List.drop_drop, List.drop_left, List.drop_one, List.tail_cons]

namespace Session

/-- The session with only the first actions of its log. -/
def upTo (s : Session) (n : Nat) : Session := { s with log := s.log.take n }

/-- A session on a story that has not begun, with a log to replay. -/
def ofLog (p : Player) (liveDefault : Bool) (log : ActionLog) : Session :=
  { ofPlayer p liveDefault with log }

/-- The action at a position of the log is the first choice that the story refuses when the log is
replayed, and so many choices are on offer there. -/
structure FirstRefused (s : Session) (n i available : Nat) : Prop where
  choice : s.log[n]? = some (.selectChoice i)
  refused : available ≤ i
  /-- Up to there the log can be replayed. -/
  replays : ∀ m ≤ n, (s.upTo m).replay.result = .ok ()
  offers : (offered (s.upTo n).replay.session.player).length = available
  /-- Every choice before is on offer where it is made. -/
  taken : ∀ m < n, ∀ j, s.log[m]? = some (.selectChoice j) →
    j < (offered (s.upTo m).replay.session.player).length

/-- A replay that does not diverge has met no choice that was not on offer. -/
theorem lt_offered_of_foldLog {r r' : Rebuilt} {n m j : Nat} {log : ActionLog}
    (h : foldLog r n log = .ok r') (hp : r'.player.isSome = true) (hd : r'.divergedAt = none)
    (hj : log[m]? = some (.selectChoice j)) :
    ∃ r₁, foldLog r n (log.take m) = .ok r₁ ∧ j < (offered r₁.player).length := by
  obtain ⟨hm, hget⟩ := List.getElem?_eq_some_iff.mp hj
  have hcut : log = log.take m ++ .selectChoice j :: log.drop (m + 1) := by
    rw [← hget, ← List.drop_eq_getElem_cons hm, List.take_append_drop]
  rw [hcut] at h
  obtain ⟨r₁, h₁, h₂⟩ := foldLog_append_ok.mp h
  obtain ⟨r₂, hfolds, h₃⟩ := foldLog_cons_ok.mp h₂
  have hd₂ : r₂.divergedAt = none := divergedAt_eq_none_of_foldLog h₃ hd
  have hstory := congrArg Option.isSome (fresh_foldLog h₂)
  rw [Option.isSome_map, Option.isSome_map, hp] at hstory
  refine ⟨r₁, h₁, ?_⟩
  cases hfolds with
  | skip hdiv _ =>
    rw [hd₂] at hdiv
    cases hdiv
  | note ha _ =>
    rcases ha with hnone | hmoves
    · rw [hnone] at hstory
      cases hstory
    · cases hmoves
  | choose hi _ => exact hi
  | refuse _ => cases hd₂

/-- A replay diverges at the first choice that the story refuses, and passes over all choices behind it. -/
theorem exists_firstRefused {s : Session} {r : Rebuilt} {d : Nat} (ha : s.disposed = false)
    (h : foldLog s.blank 0 s.log = .ok r) (hd : r.divergedAt = some d) :
    ∃ i available, s.FirstRefused d i available ∧
      foldLog s.blank 0 (s.log.resolve d i available) = .ok { r with divergedAt := none } := by
  obtain ⟨l₁, i, l₂, p, t, hlog, hlen, hl₁, hi, hl₂⟩ := exists_refused h rfl hd
  obtain rfl : d = l₁.length := by rw [hlen, Nat.zero_add]
  have htake {m : Nat} (hm : m ≤ l₁.length) : s.log.take m = l₁.take m := by
    rw [hlog, List.take_append_of_le_length hm]
  refine ⟨i, p.choices.length, ⟨?_, hi, fun m hm => ?_, ?_, fun m hm j hj => ?_⟩, ?_⟩
  · rw [hlog, List.getElem?_append_right (Nat.le_refl _), Nat.sub_self]
    rfl
  · obtain ⟨r₁, hr₁⟩ := exists_foldLog_take h m
    rw [replay_of_foldLog (s := s.upTo m) ha hr₁]
    rfl
  · have hall : foldLog s.blank 0 (s.log.take l₁.length) = .ok ⟨some p, t, none⟩ := by
      rw [htake (Nat.le_refl _), List.take_length]
      exact hl₁
    rw [replay_of_foldLog (s := s.upTo l₁.length) ha hall]
    rfl
  · rw [hlog, List.getElem?_append_left hm] at hj
    obtain ⟨r₁, hr₁, hlt⟩ := lt_offered_of_foldLog hl₁ rfl rfl hj
    rw [← htake (Nat.le_of_lt hm)] at hr₁
    rw [replay_of_foldLog (s := s.upTo m) ha hr₁]
    exact hlt
  · -- The error of the refused choice is recorded before those of the actions behind it.
    have herrors : r.state.errors =
        (t.errors ++ [.invalidChoice i p.choices.length]) ++ ActionLog.errors l₂ :=
      errors_foldLog hl₂ hd
    have hrest := foldLog_of_diverged hl₂ rfl (t.errors ++ [.invalidChoice i p.choices.length])
      (0 + l₁.length + 1)
    rw [← herrors] at hrest
    rw [hlog, ActionLog.resolve_length]
    exact foldLog_append_ok.mpr
      ⟨_, hl₁, foldLog_cons_ok.mpr ⟨_, .note (.inr rfl) rfl, hrest⟩⟩

/-- A replay that diverges leaves the log as it is, and it comes to the state that the replay of another
log comes to, on a story that has not begun: the log in which the first choice that the story refuses
has given way to the error of that choice, and without the choices behind it. That replay does not
diverge. A session that has been let go has no story, and nothing of it is replayed. -/
theorem replay_of_diverged {s : Session} (hok : s.replay.result = .ok ())
    (hd : s.replay.session.isDiverged = true) :
    s.replay.session.log = s.log ∧
      ((s.disposed = true ∧ s.replay.session = s) ∨
        ∃ p n i available, s.player = some p ∧ s.replay.session.divergedAt = some n ∧
          s.FirstRefused n i available ∧
          (ofLog p.fresh s.liveDefault (s.log.resolve n i available)).replay.result = .ok () ∧
          (ofLog p.fresh s.liveDefault (s.log.resolve n i available)).replay.session.state =
            s.replay.session.state ∧
          (ofLog p.fresh s.liveDefault (s.log.resolve n i available)).replay.session.isDiverged =
            false) := by
  cases ha : s.disposed with
  | true =>
    have hreplay : s.replay = s.unchanged () := if_pos ha
    rw [hreplay]
    exact ⟨rfl, .inl ⟨rfl, rfl⟩⟩
  | false =>
    obtain ⟨t, hrebuild, hreplay⟩ | ⟨e, _, hreplay⟩ := replay_cases ha
    · rw [hreplay] at hd ⊢
      obtain ⟨n, hn⟩ := Option.isSome_iff_exists.mp hd
      have hstory : s.hasStory = true :=
        (hasStory_of_blank (blank_of_rebuild hrebuild)).symm.trans
          ((settled_of_rebuild ha hrebuild).hasStory_of_diverged hn)
      obtain ⟨p, hp⟩ := Option.isSome_iff_exists.mp hstory
      obtain ⟨r, hr, rfl⟩ := rebuild_ok.mp hrebuild
      obtain ⟨i, available, hfirst, hfold⟩ := exists_firstRefused ha hr hn
      have hblank : s.blank = (ofLog p.fresh s.liveDefault s.log).blank := by
        rw [blank, hp]
        rfl
      have hresolved := replay_of_foldLog
        (s := ofLog p.fresh s.liveDefault (s.log.resolve n i available)) rfl (hblank ▸ hfold)
      refine ⟨rfl, .inr ⟨p, n, i, available, hp, hn, hfirst, ?_⟩⟩
      rw [hresolved]
      exact ⟨rfl, rfl, rfl⟩
    · rw [hreplay] at hok
      cases hok

/-- A reader went through the door and began again before an edit took the door away. -/
def doubledBack : Session :=
  (new true).after [
    .begin .openHall, .dispatch (.selectChoice 0), .dispatch (.selectChoice 1),
    .dispatch (.recordErrors [.unknownAction "fly"]), .dispatch .start, .dispatch (.selectChoice 0),
    .dispatch (.toggleLiveUpdate false), .replace .shutHall]

/-- The replay diverges at the door, and after the second start it does not take the way left again. -/
theorem replay_of_diverged_doubledBack :
    doubledBack.replay.result = .ok () ∧ doubledBack.replay.session.isDiverged = true ∧
      doubledBack.FirstRefused 2 1 1 ∧
      doubledBack.log = [.start, .selectChoice 0, .selectChoice 1,
        .recordErrors [.unknownAction "fly"], .start, .selectChoice 0, .toggleLiveUpdate false] ∧
      doubledBack.replay.session.log = doubledBack.log ∧
      (ofLog .shutHall true [.start, .selectChoice 0, .recordErrors [.invalidChoice 1 1],
        .recordErrors [.unknownAction "fly"], .start, .toggleLiveUpdate false]).replay.session.state =
          doubledBack.replay.session.state ∧
      doubledBack.replay.session.state.choiceTexts = ["go left", "go right"] ∧
      doubledBack.replay.session.state.errors = [.invalidChoice 1 1, .unknownAction "fly"] := by
  have hok : doubledBack.replay.result = .ok () := by rfl
  have hd : doubledBack.replay.session.isDiverged = true := by decide +kernel
  obtain ⟨hlog, ⟨hgone, _⟩ | ⟨p, n, i, available, hp, hn, hfirst, _, hstate, _⟩⟩ :=
    replay_of_diverged hok hd
  · cases hgone
  · obtain rfl : 2 = n := Option.some.inj ((by decide +kernel :
      some 2 = doubledBack.replay.session.divergedAt).trans hn)
    have hchoice : doubledBack.log[2]? = some (.selectChoice 1) := by decide +kernel
    obtain rfl : 1 = i := by simpa using hchoice.symm.trans hfirst.choice
    obtain rfl : 1 = available :=
      (by decide +kernel : 1 = (offered (doubledBack.upTo 2).replay.session.player).length).trans
        hfirst.offers
    have hfresh : p.fresh = .shutHall :=
      Option.some.inj ((congrArg (Option.map Player.fresh) hp).symm.trans rfl)
    rw [hfresh] at hstate
    exact ⟨hok, hd, hfirst, by decide +kernel, hlog, hstate, by decide +kernel, by decide +kernel⟩

end Session

end StoryPreview
