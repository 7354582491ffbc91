import StoryPreview.Proofs.Display.Redraw
import StoryPreview.Proofs.Preview.Recompile
/-!
Which errors a terminal prints. A view remembers how many errors the last state had and not which: of the
errors of the next state it prints those behind as many (`printedErrors_extending`), unless there are
fewer than before or the screen is cleared (`printedErrors_redrawn`). So an error may come in the place of
another one and never be printed, and this is the only way for it to get lost (`errors_printed_iff`).
-/
namespace StoryPreview

namespace View

/-- The errors that have been printed since the last redraw, in a run of states. -/
def printedErrors (states : List State) : List String :=
  (sinceRedraw (empty.applyAll states).2).flatMap Delta.errors

theorem newErrors_of_lt {n : Nat} {errors : List ErrorInfo} (h : errors.length < n) :
    newErrors n errors = errors.map ErrorInfo.render := by
  rw [newErrors, if_pos h, List.drop_zero]

theorem newErrors_of_le {n : Nat} {errors : List ErrorInfo} (h : n ≤ errors.length) :
    newErrors n errors = (errors.drop n).map ErrorInfo.render := by
  rw [newErrors, if_neg (by omega)]

/-- The errors of the first state are printed. -/
theorem printedErrors_singleton (s : State) : printedErrors [s] = s.errors.map ErrorInfo.render := by
  have hone : empty.applyAll [s] = ((empty.apply s).1, [(empty.apply s).2]) := rfl
  rw [printedErrors, hone, apply_empty]
  exact List.append_nil _

/-- A state that does not go on with the transcript clears the screen; all its errors are printed. -/
theorem printedErrors_redrawn {seen : List State} {s t : State}
    (h : ¬ s.transcript <+: t.transcript) :
    printedErrors ((seen ++ [s]) ++ [t]) = t.errors.map ErrorInfo.render := by
  have hshown : (empty.applyAll (seen ++ [s])).1.shown = s.transcript := by
    rw [applyAll_concat, shown_apply]
  rw [← hshown] at h
  rw [printedErrors, applyAll_concat, sinceRedraw_concat, apply_redrawn h, apply_empty,
    if_pos rfl, List.flatMap_singleton]

/-- A state that goes on adds the errors that it has behind as many as the state before. -/
theorem printedErrors_extending {seen : List State} {s t : State}
    (h : s.transcript <+: t.transcript) :
    printedErrors ((seen ++ [s]) ++ [t]) =
      printedErrors (seen ++ [s]) ++ newErrors s.errors.length t.errors := by
  have hshown : (empty.applyAll (seen ++ [s])).1.shown = s.transcript := by
    rw [applyAll_concat, shown_apply]
  have hcount : (empty.applyAll (seen ++ [s])).1.errorsShown = s.errors.length := by
    rw [applyAll_concat, errorsShown_apply]
  rw [← hshown] at h
  rw [printedErrors, applyAll_concat, sinceRedraw_concat, apply_extending h, if_neg (by simp),
    List.flatMap_append, List.flatMap_singleton, hcount]
  rfl

/-! ## All states -/

/-- In a run of states every error of every state has been printed since the last redraw if and only if
this is so of the errors that stand where the state before had its errors, wherever the transcript goes
on and the errors do not become fewer. -/
theorem errors_printed_iff (states : List State) :
    (∀ seen s, seen ++ [s] <+: states → ∀ e ∈ s.errors, e.render ∈ printedErrors (seen ++ [s])) ↔
      ∀ seen s t, seen ++ [s, t] <+: states →
        s.transcript <+: t.transcript → s.errors.length ≤ t.errors.length →
          ∀ e ∈ t.errors.take s.errors.length,
            e.render ∈ printedErrors (seen ++ [s]) ++
              (t.errors.drop s.errors.length).map ErrorInfo.render := by
  have hconcat (seen : List State) (s t : State) : seen ++ [s, t] = (seen ++ [s]) ++ [t] := by simp
  constructor
  · intro hall seen s t hprefix htranscript hlength e he
    have hmem := hall (seen ++ [s]) t (hconcat seen s t ▸ hprefix) e (List.mem_of_mem_take he)
    rwa [printedErrors_extending htranscript, newErrors_of_le hlength] at hmem
  · intro hkept seen t hprefix e he
    have hrender : e.render ∈ t.errors.map ErrorInfo.render := List.mem_map_of_mem he
    rcases List.eq_nil_or_concat' seen with rfl | ⟨seen, s, rfl⟩
    · rwa [List.nil_append, printedErrors_singleton]
    · -- Only what stands where there was an error before is left to the states before.
      by_cases htranscript : s.transcript <+: t.transcript
      · rw [printedErrors_extending htranscript]
        by_cases hlength : s.errors.length ≤ t.errors.length
        · rw [newErrors_of_le hlength]
          rw [← List.take_append_drop s.errors.length t.errors, List.mem_append] at he
          rcases he with he | he
          · exact hkept seen s t (hconcat seen s t ▸ hprefix) htranscript hlength e he
          · exact List.mem_append_right _ (List.mem_map_of_mem he)
        · rw [newErrors_of_lt (by omega)]
          exact List.mem_append_right _ hrender
      · rwa [printedErrors_redrawn htranscript]

end View

/-! ## An error that is not printed -/

/-- A fork whose only way leads to the end at once; the script is broken, and then repaired without the
fork. -/
def Preview.toJoin : List (Call × (String → CompileResult)) :=
  [.newStory "A fork.\n[BRANCH choice=on label=on]\n[LABEL name=on]\n", .ready,
    .dispatch (.selectChoice 0), .edit "A fork.\n[NOPE]\n", .edit "A fork.\n"].map fun call =>
      (call, compileAlone)

/-- The states that are posted. -/
def View.toJoin : List State :=
  let atEnd : State := ⟨[.text none "A fork."], [], [], [], true, false, true⟩
  [{ atEnd with choices := [⟨0, "on"⟩], atEnd := false }, atEnd,
    { atEnd with errors := [⟨.compile, "line 2: Unknown command 'NOPE'", some 2⟩] },
    { atEnd with errors := [.invalidChoice 0 0] }]

/-- The preview posts them, and the error of the last one is not printed. -/
theorem View.errors_printed_toJoin :
    Actor.posts ((Preview.new true).play Preview.toJoin).2 = View.toJoin.map .updateState ∧
      ¬ ∀ seen s, seen ++ [s] <+: toJoin → ∀ e ∈ s.errors, e.render ∈ printedErrors (seen ++ [s]) := by
  refine ⟨by decide +kernel, fun hall => ?_⟩
  have hlast : toJoin.take 3 ++ [toJoin[3]] = toJoin := rfl
  have hmem := hall (toJoin.take 3) toJoin[3] ⟨[], hlast⟩ (.invalidChoice 0 0) (by decide +kernel)
  exact absurd hmem (by decide +kernel)

end StoryPreview
