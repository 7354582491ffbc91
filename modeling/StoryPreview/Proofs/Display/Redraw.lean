import Mathlib.Data.List.Induction
import Mathlib.Data.List.Infix
import StoryPreview.Display.View
/-!
What a terminal shows after a run of states is what it would show if it had been given the last state
alone. Rendering depends on the images and the music of the transcript that has been printed and on
nothing else (`renderEntries_noting`), so a view that is `Current`, one whose images and music are those
of its transcript, goes on as if it rendered the whole transcript (`Current.apply`). The lines since the
last redraw are then those of a view that has printed nothing before (`lines_since_redraw`).
-/
namespace StoryPreview

namespace View

/-! ## Runs of states -/

/-- Goes on to states one after another. -/
def applyAll (v : View) : List State → View × List Delta
  | [] => (v, [])
  | s :: states =>
    let (v, delta) := v.apply s
    let (v, deltas) := v.applyAll states
    (v, delta :: deltas)

/-- What is still on the screen: the deltas from the last redraw on, or all if there was none. -/
def sinceRedraw : List Delta → List Delta
  | [] => []
  | d :: deltas => if deltas.any Delta.redraw then sinceRedraw deltas else d :: deltas

theorem applyAll_append (v : View) (states more : List State) :
    v.applyAll (states ++ more) =
      (((v.applyAll states).1.applyAll more).1,
        (v.applyAll states).2 ++ ((v.applyAll states).1.applyAll more).2) := by
  induction states generalizing v with
  | nil => rfl
  | cons s states ih => simp [applyAll, ih]

theorem applyAll_concat (v : View) (states : List State) (s : State) :
    v.applyAll (states ++ [s]) =
      (((v.applyAll states).1.apply s).1,
        (v.applyAll states).2 ++ [((v.applyAll states).1.apply s).2]) :=
  applyAll_append v states [s]

/-- A redraw clears the screen; any other delta is added to what is on it. -/
theorem sinceRedraw_concat (deltas : List Delta) (d : Delta) :
    sinceRedraw (deltas ++ [d]) = if d.redraw then [d] else sinceRedraw deltas ++ [d] := by
  induction deltas with
  | nil => simp [sinceRedraw]
  | cons e deltas ih =>
    rw [List.cons_append, sinceRedraw, ih, sinceRedraw, List.any_append]
    by_cases hd : d.redraw
    · simp [hd]
    · by_cases hany : deltas.any Delta.redraw
      · simp [hd, hany]
      · simp [hd, hany]

/-! ## Rendering -/

theorem renderEntries_append (v : View) (es fs : List TranscriptEntry) :
    v.renderEntries (es ++ fs) =
      (((v.renderEntries es).1.renderEntries fs).1,
        (v.renderEntries es).2 ++ ((v.renderEntries es).1.renderEntries fs).2) := by
  induction es generalizing v with
  | nil => rfl
  | cons e es ih => simp [renderEntries, ih]

/-- A view that takes something else for printed. -/
def noting (v : View) (shown : List TranscriptEntry) (errorsShown : Nat) : View :=
  { v with shown, errorsShown }

theorem renderTag_noting (v : View) (shown : List TranscriptEntry) (n : Nat) (name value : String) :
    (v.noting shown n).renderTag name value =
      ((v.renderTag name value).1.noting shown n, (v.renderTag name value).2) := by
  unfold renderTag noting
  split
  · dsimp only
    split <;> rfl
  · dsimp only
    split <;> rfl
  · dsimp only
    split <;> rfl
  · rfl
  · rfl

theorem renderEntry_noting (v : View) (shown : List TranscriptEntry) (n : Nat)
    (e : TranscriptEntry) :
    (v.noting shown n).renderEntry e =
      ((v.renderEntry e).1.noting shown n, (v.renderEntry e).2) := by
  unfold renderEntry
  split
  · rfl
  · rfl
  · exact renderTag_noting v shown n _ _

/-- What has been printed before does not matter to rendering. -/
theorem renderEntries_noting (v : View) (shown : List TranscriptEntry) (n : Nat)
    (es : List TranscriptEntry) :
    (v.noting shown n).renderEntries es =
      ((v.renderEntries es).1.noting shown n, (v.renderEntries es).2) := by
  induction es generalizing v with
  | nil => rfl
  | cons e es ih => simp [renderEntries, renderEntry_noting, ih]

/-- Rendering counts no errors. -/
theorem errorsShown_renderEntries (v : View) (es : List TranscriptEntry) :
    (v.renderEntries es).1.errorsShown = v.errorsShown := by
  have hnoting := renderEntries_noting v v.shown v.errorsShown es
  exact congrArg (fun r => r.1.errorsShown) hnoting

/-! ## One state -/

theorem shown_apply (v : View) (s : State) : (v.apply s).1.shown = s.transcript := rfl

theorem errorsShown_apply (v : View) (s : State) :
    (v.apply s).1.errorsShown = s.errors.length := rfl

/-- A view is redrawn if the transcript does not go on from what has been printed. -/
theorem redraw_apply (v : View) (s : State) :
    (v.apply s).2.redraw = true ↔ ¬ v.shown <+: s.transcript := by
  have hredraw : (v.apply s).2.redraw = !v.shown.isPrefixOf s.transcript := rfl
  rw [hredraw, Bool.not_eq_true', ← List.isPrefixOf_iff_prefix, Bool.not_eq_true]

/-- The errors that are printed: those behind as many as have been printed, or all if there are fewer. -/
def newErrors (errorsShown : Nat) (errors : List ErrorInfo) : List String :=
  (errors.drop (if errors.length < errorsShown then 0 else errorsShown)).map ErrorInfo.render

theorem apply_extending {v : View} {s : State} (h : v.shown <+: s.transcript) :
    v.apply s =
      ((v.renderEntries (s.transcript.drop v.shown.length)).1.noting s.transcript s.errors.length,
        ⟨false, (v.renderEntries (s.transcript.drop v.shown.length)).2,
          newErrors v.errorsShown s.errors⟩) := by
  have hdraw : (!v.shown.isPrefixOf s.transcript) = false := by
    rw [List.isPrefixOf_iff_prefix.mpr h]
    rfl
  have hcount := errorsShown_renderEntries v (s.transcript.drop v.shown.length)
  unfold apply newErrors
  simp only [hdraw, Bool.false_eq_true, if_false, hcount]
  rfl

/-- A redraw prints what a view prints that has printed nothing before. -/
theorem apply_redrawn {v : View} {s : State} (h : ¬ v.shown <+: s.transcript) :
    v.apply s = ((empty.apply s).1, { (empty.apply s).2 with redraw := true }) := by
  have hdraw : (!v.shown.isPrefixOf s.transcript) = true := (redraw_apply v s).mpr h
  unfold apply
  simp only [hdraw]
  rfl

/-- The lines of a transcript from the top. -/
def drawing (transcript : List TranscriptEntry) : List String := (empty.renderEntries transcript).2

/-- The images and the music are those of the transcript that has been printed. -/
def Current (v : View) : Prop :=
  v = (empty.renderEntries v.shown).1.noting v.shown v.errorsShown

/-- A current view renders what comes next as part of the whole transcript. -/
theorem Current.renderEntries {v : View} (h : v.Current) (es : List TranscriptEntry) :
    v.renderEntries es =
      ((empty.renderEntries (v.shown ++ es)).1.noting v.shown v.errorsShown,
        ((empty.renderEntries v.shown).1.renderEntries es).2) := by
  conv_lhs => rw [h]
  rw [renderEntries_noting, renderEntries_append]

theorem apply_empty (s : State) :
    empty.apply s =
      ((empty.renderEntries s.transcript).1.noting s.transcript s.errors.length,
        ⟨false, drawing s.transcript, s.errors.map ErrorInfo.render⟩) :=
  apply_extending List.nil_prefix

theorem Current.apply {v : View} (h : v.Current) (s : State) : (v.apply s).1.Current := by
  by_cases hs : v.shown <+: s.transcript
  · have hwhole : v.shown ++ s.transcript.drop v.shown.length = s.transcript :=
      (List.prefix_append_drop hs).symm
    rw [apply_extending hs, h.renderEntries, hwhole]
    rfl
  · rw [apply_redrawn hs, apply_empty]
    rfl

/-- What a current view prints for a transcript that goes on is what the lines so far lack. -/
theorem Current.drawing_append {v : View} (h : v.Current) {s : State}
    (hs : v.shown <+: s.transcript) :
    drawing v.shown ++ (v.apply s).2.lines = drawing s.transcript := by
  have hwhole : v.shown ++ s.transcript.drop v.shown.length = s.transcript :=
    (List.prefix_append_drop hs).symm
  have hlines : drawing v.shown ++
      ((empty.renderEntries v.shown).1.renderEntries (s.transcript.drop v.shown.length)).2 =
        drawing (v.shown ++ s.transcript.drop v.shown.length) := by
    rw [drawing, drawing, renderEntries_append]
  rw [apply_extending hs, h.renderEntries, hlines, hwhole]

/-! ## All states -/

/-- After any states the view is current, and the lines on the screen are those of its transcript. -/
theorem current_applyAll (states : List State) :
    (empty.applyAll states).1.Current ∧
      (sinceRedraw (empty.applyAll states).2).flatMap Delta.lines =
        drawing (empty.applyAll states).1.shown := by
  induction states using List.reverseRecOn with
  | nil => exact ⟨rfl, rfl⟩
  | append_singleton states s ih =>
    obtain ⟨hcurrent, hlines⟩ := ih
    rw [applyAll_concat, sinceRedraw_concat]
    refine ⟨hcurrent.apply s, ?_⟩
    dsimp only
    by_cases hs : (empty.applyAll states).1.shown <+: s.transcript
    · have hdraw : ((empty.applyAll states).1.apply s).2.redraw = false := by
        rw [apply_extending hs]
      rw [hdraw, if_neg (by simp), List.flatMap_append, hlines, List.flatMap_singleton,
        hcurrent.drawing_append hs, shown_apply]
    · rw [apply_redrawn hs, apply_empty, if_pos rfl, List.flatMap_singleton]
      rfl

theorem shown_applyAll (states : List State) :
    (empty.applyAll states).1.shown = states.getLast?.elim [] State.transcript := by
  induction states using List.reverseRecOn with
  | nil => rfl
  | append_singleton states s ih => rw [applyAll_concat, List.getLast?_concat]; rfl

/-- A state that has just been printed leaves nothing to print. -/
theorem apply_again (v : View) (s : State) : ((v.apply s).1.apply s).2 = ⟨false, [], []⟩ := by
  have hshown := shown_apply v s
  have hcount := errorsShown_apply v s
  generalize (v.apply s).1 = w at hshown hcount
  have hprefix : w.shown <+: s.transcript := by rw [hshown]
  rw [apply_extending hprefix, hshown, hcount, List.drop_length, newErrors, if_neg (by simp),
    List.drop_length]
  rfl

/-- After each of a run of states, the lines printed since the last redraw are those that a view prints
for that state alone. The screen is cleared exactly when the transcript does not go on from the one
before, and the same state once more prints nothing. -/
theorem lines_since_redraw (states : List State) (s : State) :
    let before := empty.applyAll states
    let after := empty.applyAll (states ++ [s])
    (sinceRedraw after.2).flatMap Delta.lines = (empty.apply s).2.lines ∧
      (∃ d, after.2 = before.2 ++ [d] ∧
        (d.redraw = true ↔ ¬ states.getLast?.elim [] State.transcript <+: s.transcript)) ∧
      (after.1.apply s).2 = ⟨false, [], []⟩ := by
  intro before after
  have hafter : after = ((before.1.apply s).1, before.2 ++ [(before.1.apply s).2]) :=
    applyAll_concat empty states s
  obtain ⟨_, hlines⟩ := current_applyAll (states ++ [s])
  refine ⟨?_, ⟨(before.1.apply s).2, by rw [hafter], ?_⟩, ?_⟩
  · rw [hlines, shown_applyAll, List.getLast?_concat, apply_empty]
    rfl
  · rw [redraw_apply, ← shown_applyAll]
  · rw [hafter]
    exact apply_again before.1 s

/-- Of a cue for an image or for music that is there already nothing is printed, until the transcript is
another one: then everything is printed again. -/
example :
    let before := [.tag "show_image" (some "back:sea.png"), .tag "play_bgm" (some "waves")]
    let again := before ++ [.tag "play_bgm" (some "waves"), .tag "show_image" (some "back:sea.png"),
      .text (some "A gull") "Ahoy."]
    let other := .text none "A quay." :: before
    (empty.applyAll ([before, again, other].map fun transcript =>
      { State.empty true with transcript })).2 =
        [⟨false, ["  [ShowImage: sea.png (back)]", "  [PlayBGM: waves]"], []⟩,
          ⟨false, ["A gull:\nAhoy.\n"], []⟩,
          ⟨true, ["A quay.\n", "  [ShowImage: sea.png (back)]", "  [PlayBGM: waves]"], []⟩] := by
  decide +kernel

end View

end StoryPreview
