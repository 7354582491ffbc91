import StoryPreview.Proofs.Session.CompileErrors
import StoryPreview.Proofs.Session.Dispatch
import StoryPreview.Proofs.Session.Offer
/-!
Edits of a script, as a session goes through them. The story that an edit puts in place finds nothing of
the old one but the log, and that without its compile errors. So an edit that has been taken back leaves
no trace, even if the replay on it failed (`replace_of_reverted`), and an edit that leaves the story as
it is only makes the session forget its compile errors (`replace_fresh`). Of a choice that was refused
the log has only the error, so no later story takes it (`replace_of_refused`).
-/
namespace StoryPreview

/-- Errors of compiling are those of two kinds. -/
theorem ErrorKind.not_isCompile (k : ErrorKind) :
    (!k.isCompile) = decide (k ≠ .compile ∧ k ≠ .includeLoad) := by
  cases k <;> rfl

/-- The action with only those of its errors that pass a test. -/
def Action.keepErrors (keep : ErrorInfo → Bool) : Action → Action
  | .recordErrors errors => .recordErrors (errors.filter keep)
  | a => a

theorem Action.keepErrors_keepErrors (keep : ErrorInfo → Bool) (a : Action) :
    (a.keepErrors keep).keepErrors keep = a.keepErrors keep := by
  cases a <;> simp [keepErrors]

namespace ActionLog

theorem withoutCompileErrors_eq_guard (a : Action) :
    withoutCompileErrors a =
      Option.guard (fun a => a ≠ .recordErrors []) (a.keepErrors fun e => !e.kind.isCompile) := by
  cases a with
  | recordErrors errors =>
    unfold withoutCompileErrors Action.keepErrors
    dsimp only
    cases errors.filter fun e => !e.kind.isCompile with
    | nil => rfl
    | cons e errors => simp [Option.guard]
  | _ => rfl

/-- To forget compile errors is to take them out of every record and then to delete the empty records. -/
theorem dropCompileErrors_eq (log : ActionLog) :
    log.dropCompileErrors =
      (log.map (Action.keepErrors fun e => !e.kind.isCompile)).filter
        fun a => a ≠ .recordErrors [] := by
  unfold dropCompileErrors
  rw [← List.filterMap_eq_filter, List.filterMap_map]
  exact congrArg (List.filterMap · log) (funext withoutCompileErrors_eq_guard)

/-- What is left of an action is left of it for good. -/
theorem withoutCompileErrors_of_some {a b : Action} (h : withoutCompileErrors a = some b) :
    withoutCompileErrors b = some b := by
  rw [withoutCompileErrors_eq_guard] at h ⊢
  obtain ⟨rfl, hb⟩ := Option.guard_eq_some_iff.mp h
  rw [Action.keepErrors_keepErrors]
  exact if_pos hb

theorem dropCompileErrors_idem (log : ActionLog) :
    log.dropCompileErrors.dropCompileErrors = log.dropCompileErrors := by
  have htwice : (fun a => (withoutCompileErrors a).bind withoutCompileErrors) =
      withoutCompileErrors := by
    funext a
    cases h : withoutCompileErrors a with
    | none => rfl
    | some b => exact withoutCompileErrors_of_some h
  unfold dropCompileErrors
  rw [List.filterMap_filterMap, htwice]

end ActionLog

namespace Session

/-! ## Edits that are taken back -/

/-- Sessions that the next story makes no difference between. -/
structure Akin (s t : Session) : Prop where
  log : t.log.dropCompileErrors = s.log.dropCompileErrors
  liveDefault : t.liveDefault = s.liveDefault
  disposed : t.disposed = s.disposed

theorem Akin.refl (s : Session) : s.Akin s := ⟨rfl, rfl, rfl⟩

theorem Akin.trans {s t u : Session} (h : s.Akin t) (h' : t.Akin u) : s.Akin u :=
  ⟨h'.log.trans h.log, h'.liveDefault.trans h.liveDefault, h'.disposed.trans h.disposed⟩

theorem replace_of_disposed {s : Session} (ha : s.disposed = true) (p : Player) :
    s.replace p = s.unchanged () := if_pos ha

/-- The next story finds the same after an edit as before it, also if the replay failed and has left the
session with the edited story and the old state. -/
theorem akin_replace (s : Session) (p : Player) : s.Akin (s.replace p).session := by
  cases ha : s.disposed with
  | true =>
    rw [replace_of_disposed ha]
    exact .refl s
  | false =>
    have hreplay : s.replace p =
        ({ s with player := some p, log := s.log.dropCompileErrors } : Session).replay :=
      if_neg (by simp [ha])
    rw [hreplay]
    obtain ⟨t, hrebuild, heq⟩ | ⟨e, _, heq⟩ :=
      replay_cases (s := { s with player := some p, log := s.log.dropCompileErrors }) ha
    · rw [heq]
      obtain ⟨r, _, rfl⟩ := rebuild_ok.mp hrebuild
      exact ⟨s.log.dropCompileErrors_idem, rfl, rfl⟩
    · rw [heq]
      exact ⟨s.log.dropCompileErrors_idem, rfl, rfl⟩

theorem akin_after (s : Session) (edits : List Player) :
    s.Akin (s.after (edits.map .replace)) := by
  induction edits generalizing s with
  | nil => exact .refl s
  | cons p edits ih => exact (s.akin_replace p).trans (ih (s.replace p).session)

theorem after_of_disposed {s : Session} (ha : s.disposed = true) (edits : List Player) :
    s.after (edits.map .replace) = s := by
  induction edits with
  | nil => rfl
  | cons p edits ih =>
    have hsame : (s.perform (.replace p)).session = s :=
      congrArg Reply.session (replace_of_disposed ha p)
    exact (congrArg (after · (edits.map .replace)) hsame).trans ih

/-- A story that takes its place in a session takes it in every session akin to that one, and comes to
the same there. -/
theorem replace_of_akin {s t : Session} (h : s.Akin t) {p : Player} (ha : s.disposed = false)
    (hok : (s.replace p).result = .ok ()) : t.replace p = s.replace p := by
  obtain ⟨r, hr, _⟩ := replace_ok ha hok
  have hr' : foldLog ⟨some p.fresh, .empty t.liveDefault, none⟩ 0 t.log.dropCompileErrors = .ok r := by
    rw [h.liveDefault, h.log]
    exact hr
  rw [replace_of_foldLog ha hr, replace_of_foldLog (h.disposed.trans ha) hr', h.log, h.liveDefault,
    h.disposed]

/-- An edit that has been taken back leaves no trace. If a story can take its place in a session, then it
can do so after any other stories, whether or not the log could be replayed on them, and it comes to
the very same: the same state, the same log, diverged or not as without the detour. -/
theorem replace_of_reverted {s : Session} {p : Player} (edits : List Player)
    (hok : (s.replace p).result = .ok ()) :
    (s.after (edits.map .replace)).replace p = s.replace p := by
  cases ha : s.disposed with
  | true => rw [after_of_disposed ha]
  | false => exact replace_of_akin (s.akin_after edits) ha hok

/-- A story without a way out. -/
def whirl : Player :=
  .ofStory ⟨#[.branch [⟨"in", "in"⟩], .label "in", .jump "in"], .ofList [("in", 1)]⟩ 10

/-- On the way the reader of the hall has lost the door, and has then been caught in a story without a way
out. With the hall put back, nothing of that is left. -/
theorem replace_of_reverted_pastDoor :
    (pastDoor.replace .openHall).result = .ok () ∧
      (pastDoor.replace .shutHall).session.isDiverged = true ∧
      ((pastDoor.replace .shutHall).session.replace whirl).result = .error (.runtime (.stepLimit 10)) ∧
      (pastDoor.after [.replace .shutHall, .replace whirl]).isDiverged = true ∧
      (pastDoor.after [.replace .shutHall, .replace whirl]).replace .openHall =
        pastDoor.replace .openHall ∧
      (pastDoor.replace .openHall).session.isDiverged = false := by
  have hok : (pastDoor.replace .openHall).result = .ok () := by rfl
  exact ⟨hok, by decide +kernel, by rfl, by decide +kernel,
    replace_of_reverted [.shutHall, whirl] hok, by decide +kernel⟩

/-! ## Edits that change nothing -/

/-- A story that has not begun takes the place of itself: nothing is lost but the errors of compiling, in
the state and, in the log, from every record of errors, and records that are left empty go. -/
theorem replace_fresh {s : Session} {p : Player} (h : Reached s) (hp : s.player = some p) :
    (s.replace p.fresh).result = .ok () ∧
      (s.replace p.fresh).session.isDiverged = s.isDiverged ∧
      (s.replace p.fresh).session.state = { s.state with
        errors := s.state.errors.filter fun e => e.kind ≠ .compile ∧ e.kind ≠ .includeLoad } ∧
      (s.replace p.fresh).session.log =
        (s.log.map (Action.keepErrors fun e => e.kind ≠ .compile ∧ e.kind ≠ .includeLoad)).filter
          fun a => a ≠ .recordErrors [] := by
  have hs : Settled s := settled_of_reached h
  obtain ⟨d, hd, hfold⟩ := hs.foldLog_dropCompileErrors
  have hblank : s.blank = ⟨some p.fresh.fresh, .empty s.liveDefault, none⟩ := by
    rw [blank, hp]
    rfl
  rw [hblank] at hfold
  rw [replace_of_foldLog hs.active hfold]
  refine ⟨rfl, hd, ?_, ?_⟩
  · simp only [← ErrorKind.not_isCompile]
    rfl
  · simp only [← ErrorKind.not_isCompile]
    exact s.log.dropCompileErrors_eq

/-- A session that has diverged, and since then compiles have failed. -/
def strayedAndFailed : Session :=
  strayed.after [
    .dispatch (.recordErrors [⟨.compile, "line 2: Empty command", some 2⟩, .unknownAction "fly",
      ⟨.includeLoad, "Failed to load include 'side'", none⟩]),
    .dispatch (.recordErrors [⟨.compile, "line 3: Empty command", some 3⟩])]

/-- The next compile succeeds. One of the two records goes, and the errors of play stay, with the one that
the divergence left in its place. -/
theorem replace_fresh_strayed :
    ∃ p, Reached strayedAndFailed ∧ strayedAndFailed.player = some p ∧
      strayedAndFailed.isDiverged = true ∧
      (strayedAndFailed.replace p.fresh).result = .ok () ∧
      (strayedAndFailed.replace p.fresh).session.isDiverged = true ∧
      (strayedAndFailed.replace p.fresh).session.state = { strayedAndFailed.state with
        errors := [.invalidChoice 9 2, .invalidChoice 1 1, .unknownAction "fly"] } ∧
      (strayedAndFailed.replace p.fresh).session.log =
        [.start, .selectChoice 0, .recordErrors [.invalidChoice 9 2], .selectChoice 1,
          .recordEvents [⟨"ping", []⟩], .toggleLiveUpdate false,
          .recordErrors [.unknownAction "fly"]] := by
  have h : Reached strayedAndFailed := reached_after reached_strayed (by decide +kernel)
  have hp : strayedAndFailed.player = some (strayedAndFailed.player.get (by rfl)) := by rfl
  obtain ⟨hok, hdiverged, hstate, hlog⟩ := replace_fresh h hp
  refine ⟨_, h, hp, by decide +kernel, hok, hdiverged.trans (by decide +kernel), ?_, ?_⟩
  · rw [hstate]
    decide +kernel
  · rw [hlog]
    decide +kernel

/-! ## Edits after a refused choice -/

/-- A note that no compile makes obsolete stays at the end of the log, and a story that takes its place
comes to what it comes to without the note, and then to the note. -/
theorem replace_of_noted {s t : Session} {a : Action} (ha : a.movesStory = false)
    (hkept : ActionLog.withoutCompileErrors a = some a) (hlog : t.log = s.log ++ [a])
    (hdefault : t.liveDefault = s.liveDefault) (hdisposed : t.disposed = false)
    (hactive : s.disposed = false) {p : Player} (hok : (s.replace p).result = .ok ()) :
    (t.replace p).result = .ok () ∧
      (t.replace p).session = { (s.replace p).session with
        state := ((s.replace p).session.state.annotate a).1
        log := (s.replace p).session.log ++ [a] } := by
  obtain ⟨r, hr, hsession⟩ := replace_ok hactive hok
  have hkeeps : t.log.dropCompileErrors = s.log.dropCompileErrors ++ [a] := by
    rw [hlog, ActionLog.dropCompileErrors, List.filterMap_append, List.filterMap_cons_some hkept]
    rfl
  have hnote : Folds s.log.dropCompileErrors.length r a
      { r with state := (r.state.annotate a).1 } :=
    .note (.inr ha) (by simp [Action.affectsChoice_of_not_moves ha])
  have hfold : foldLog ⟨some p.fresh, .empty t.liveDefault, none⟩ 0 t.log.dropCompileErrors =
      .ok { r with state := (r.state.annotate a).1 } := by
    rw [hdefault, hkeeps]
    refine foldLog_append_ok.mpr ⟨r, hr, ?_⟩
    rw [Nat.zero_add]
    exact foldLog_of_folds hnote
  rw [replace_of_foldLog hdisposed hfold, hsession]
  refine ⟨rfl, ?_⟩
  simp only [changed, hkeeps, hdefault, hdisposed, hactive]

/-- A choice that was refused is refused for good. What stands in the log is the error it gave and not the
choice, so a story that takes its place after it comes to what it comes to without it, also if it
offers a choice of that index there, and has exactly one error more, the last. -/
theorem replace_of_refused {s : Session} {i : Nat} {p : Player} (h : Reached s)
    (hstory : s.hasStory = true) (hd : s.isDiverged = false) (hi : s.state.choices.length ≤ i)
    (hok : (s.replace p).result = .ok ()) :
    (s.dispatch (.selectChoice i)).result = .ok () ∧
      ((s.dispatch (.selectChoice i)).session.replace p).result = .ok () ∧
      ((s.dispatch (.selectChoice i)).session.replace p).session.isDiverged =
        (s.replace p).session.isDiverged ∧
      ((s.dispatch (.selectChoice i)).session.replace p).session.state =
        { (s.replace p).session.state with
          errors := (s.replace p).session.state.errors ++
            [.invalidChoice i s.state.choices.length] } ∧
      ((s.dispatch (.selectChoice i)).session.replace p).session.log =
        (s.replace p).session.log ++
          [.recordErrors [.invalidChoice i s.state.choices.length]] := by
  have hs : Settled s := settled_of_reached h
  have hdn : s.divergedAt = none := by simpa [isDiverged] using hd
  obtain ⟨q, hq⟩ := Option.isSome_iff_exists.mp hstory
  have hchoices : s.state.choices = q.choices := by
    rw [hs.choices, hq]
    rfl
  rw [hchoices] at hi ⊢
  have hrecord : s.dispatch (.selectChoice i) = s.record (.selectChoice i) :=
    dispatch_eq_record hs.active (by simp) (.inl hdn)
  obtain ⟨t, hdispatch, hlog, hdefault, hdisposed⟩ : ∃ t : Session,
      s.dispatch (.selectChoice i) = t.changed () ∧
        t.log = s.log ++ [.recordErrors [.invalidChoice i q.choices.length]] ∧
        t.liveDefault = s.liveDefault ∧ t.disposed = false :=
    ⟨_, hrecord.trans (record_refused hq hi), rfl, rfl, hs.active⟩
  obtain ⟨hresult, hsession⟩ := replace_of_noted rfl rfl hlog hdefault hdisposed hs.active hok
  rw [hdispatch]
  dsimp only [changed]
  rw [hsession]
  exact ⟨rfl, hresult, rfl, rfl, rfl⟩

/-- A reader in the hall without its door, who tries to open one all the same. -/
def inShutHall : Session := (new true).after [.begin .shutHall, .dispatch (.selectChoice 0)]

/-- With the hall edited to have a door the reader still stands in it: the door is on display now, with the
index that was refused, and it has not been taken. -/
theorem replace_of_refused_inShutHall :
    Reached inShutHall ∧ inShutHall.hasStory = true ∧ inShutHall.isDiverged = false ∧
      inShutHall.state.choices.length = 1 ∧
      (inShutHall.replace .openHall).result = .ok () ∧
      (inShutHall.dispatch (.selectChoice 1)).result = .ok () ∧
      ((inShutHall.dispatch (.selectChoice 1)).session.replace .openHall).result = .ok () ∧
      ((inShutHall.dispatch (.selectChoice 1)).session.replace .openHall).session.isDiverged =
        false ∧
      ((inShutHall.dispatch (.selectChoice 1)).session.replace .openHall).session.state =
        { (inShutHall.replace .openHall).session.state with errors := [.invalidChoice 1 1] } ∧
      (inShutHall.replace .openHall).session.state.choiceTexts = ["flee", "open the door"] := by
  have h : Reached inShutHall := reached_after (.new true) (by decide +kernel)
  have hok : (inShutHall.replace .openHall).result = .ok () := by rfl
  have hlen : inShutHall.state.choices.length = 1 := by decide +kernel
  obtain ⟨hrefused, hresult, hdiverged, hstate, _⟩ :=
    replace_of_refused (i := 1) h rfl rfl (Nat.le_of_eq hlen) hok
  refine ⟨h, rfl, rfl, hlen, hok, hrefused, hresult, hdiverged.trans (by decide +kernel), ?_,
    by decide +kernel⟩
  rw [hstate, hlen]
  decide +kernel

end Session

end StoryPreview
