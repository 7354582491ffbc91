import StoryPreview.Proofs.Script.Composition
/-!
A script in the middle of another. Where lines stand does not matter to lines without a fault, and no
`SAY` is open before a command that is no fault (`items_before_command`), so what stands around an
`INCLUDE` line is read as by itself. A line feed behind a script adds at most an empty line to it
(`linesOf_newline`).
-/
namespace StoryPreview

/-! ## Lines -/

namespace Text

/-- A blank at the end is trimmed. -/
theorem trim_append_blank {c : Char} (hc : isBlank c = true) (cs : List Char) :
    trim (cs ++ [c]) = trim cs := by
  unfold trim trimStart trimEnd
  rw [List.dropWhile_append]
  split
  · rename_i h
    have hnil : cs.dropWhile isBlank = [] := List.isEmpty_iff.mp h
    rw [hnil]
    simp [hc]
  · simp [hc]

theorem pieces_line {r : List Char} (h : '\n' ∉ r) : pieces (r ++ ['\n']) = [r ++ ['\n']] := by
  induction r with
  | nil => rfl
  | cons c r ih =>
    rw [List.mem_cons, not_or] at h
    exact pieces_cons (Ne.symm h.1) (ih h.2)

theorem pieces_rest {r : List Char} (h : '\n' ∉ r) (hr : r ≠ []) : pieces r = [r] := by
  induction r with
  | nil => exact absurd rfl hr
  | cons c r ih =>
    rw [List.mem_cons, not_or] at h
    cases r with
    | nil => simp [pieces, Ne.symm h.1]
    | cons d r => exact pieces_cons (Ne.symm h.1) (ih h.2 (by simp))

/-- Every text is lines that end and a rest without a line feed. -/
theorem exists_rest (a : List Char) : ∃ b r, a = b ++ r ∧ EndsLine b ∧ '\n' ∉ r := by
  induction a with
  | nil => exact ⟨[], [], rfl, .inl rfl, List.not_mem_nil⟩
  | cons c a ih =>
    obtain ⟨b, r, rfl, hb, hr⟩ := ih
    rcases hb with rfl | ⟨d, rfl⟩
    · by_cases hc : c = '\n'
      · exact ⟨[c], r, rfl, .inr ⟨[], by rw [hc, List.nil_append]⟩, hr⟩
      · refine ⟨[], c :: r, rfl, .inl rfl, ?_⟩
        rw [List.mem_cons, not_or]
        exact ⟨Ne.symm hc, hr⟩
    · exact ⟨c :: (d ++ ['\n']), r, rfl, .inr ⟨c :: d, rfl⟩, hr⟩

end Text

namespace Script

theorem stripBreak_of_newline_free {r : List Char} (h : '\n' ∉ r) : Text.stripBreak r = r := by
  have hfirst {q : List Char} (hq : r.reverse = '\n' :: q) : False := by
    refine h (List.mem_reverse.mp ?_)
    rw [hq]
    exact List.mem_cons_self
  unfold Text.stripBreak
  split
  · rename_i q hq
    exact (hfirst hq).elim
  · rename_i q _ hq
    exact (hfirst hq).elim
  · rfl

/-- What ends a line is no part of what it says. -/
theorem ofText_stripBreak (r : List Char) :
    Line.ofText (Text.stripBreak (r ++ ['\n'])) = Line.ofText r := by
  have htrim : Text.trim (Text.stripBreak (r ++ ['\n'])) = Text.trim r := by
    have hrev : (r ++ ['\n']).reverse = '\n' :: r.reverse := List.reverse_concat
    unfold Text.stripBreak
    split
    · rename_i q hq
      rw [hrev, List.cons_inj_right] at hq
      rw [List.reverse_eq_iff.mp hq, List.reverse_cons, Text.trim_append_blank (by decide)]
    · rename_i q _ hq
      rw [hrev, List.cons_inj_right] at hq
      rw [List.reverse_eq_iff.mp hq]
    · rename_i hno
      exact absurd hrev (hno _)
  unfold Line.ofText
  rw [htrim]

/-- The lines of a text. -/
def linesOf (cs : List Char) : List Line := (Text.lines cs).map Line.ofText

theorem linesOf_append {a : List Char} (h : Text.EndsLine a) (b : List Char) :
    linesOf (a ++ b) = linesOf a ++ linesOf b := by
  unfold linesOf
  rw [Text.lines_append h, List.map_append]

theorem linesOf_line {r : List Char} (h : '\n' ∉ r) :
    linesOf (r ++ ['\n']) = [Line.ofText r] := by
  unfold linesOf Text.lines
  rw [Text.pieces_line h, List.map_singleton, List.map_singleton, ofText_stripBreak]

theorem linesOf_rest {r : List Char} (h : '\n' ∉ r) (hr : r ≠ []) :
    linesOf r = [Line.ofText r] := by
  unfold linesOf Text.lines
  rw [Text.pieces_rest h hr, List.map_singleton, List.map_singleton, stripBreak_of_newline_free h]

/-- A line feed ends the last line of a text, or adds an empty one. -/
theorem linesOf_newline (a : List Char) :
    linesOf (a ++ ['\n']) = linesOf a ∨ linesOf (a ++ ['\n']) = linesOf a ++ [.skipped] := by
  obtain ⟨b, r, rfl, hb, hr⟩ := Text.exists_rest a
  rw [List.append_assoc, linesOf_append hb, linesOf_append hb, linesOf_line hr]
  by_cases hne : r = []
  · subst hne
    exact .inr (by rw [List.append_assoc]; rfl)
  · exact .inl (by rw [linesOf_rest hr hne])

/-! ## Items -/

/-- A command closes what is open: if it is no fault that something was, nothing is. -/
theorem items_before_command {w : Option OpenSpeech} {n : Nat} {ls : List Line}
    {content trailing : List Char} {ms : List Line}
    (h : ∀ e, .error e ∉ items w n (ls ++ .command content trailing :: ms)) :
    ∀ e, .error e ∉ items w n ls := by
  induction ls generalizing w n with
  | nil => exact fun e he => h e (List.mem_append_left _ he)
  | cons l ls ih =>
    cases l with
    | skipped => exact ih h
    | narration text =>
      intro e he
      rcases List.mem_cons.mp he with heq | he
      · cases heq
      · exact ih (fun e he => h e (List.mem_cons_of_mem _ he)) e he
    | unterminated =>
      exact absurd (List.mem_append_right _ List.mem_cons_self) (h ⟨n, .unterminated⟩)
    | command content' trailing' =>
      intro e he
      simp only [items, List.cons_append] at h he
      rcases List.mem_append.mp he with he | he
      · exact h e (List.mem_append_left _ he)
      · have hrest := fun e he => h e (List.mem_append_right _ he)
        split at he
        · rename_i node hread
          rw [hread] at hrest
          rcases List.mem_cons.mp he with heq | he
          · cases heq
          · exact ih (fun e he => hrest e (List.mem_cons_of_mem _ he)) e he
        · rename_i speaker hread
          rw [hread] at hrest
          exact ih hrest e he
        · rename_i fault hread
          rw [hread] at hrest
          exact hrest _ List.mem_cons_self

/-- Lines that give commands and no fault, wherever they stand. -/
def Reads (ls : List Line) (nodes : List Node) : Prop := ∀ n, items none n ls = nodes.map .ok

theorem reads_of_items {ls : List Line} {n : Nat} {nodes : List Node}
    (h : items none n ls = nodes.map .ok) : Reads ls nodes := by
  rw [← Nat.zero_add n, items_ok_shift] at h
  intro m
  rw [← Nat.zero_add m, items_ok_shift]
  exact h

theorem Reads.not_error {ls : List Line} {nodes : List Node} (h : Reads ls nodes) (n : Nat) :
    ∀ e, .error e ∉ items none n ls := by
  intro e he
  rw [h n] at he
  simp at he

theorem parse_ok {source : String} {nodes : List Node} :
    parse source = .ok nodes ↔ Reads (linesOf source.toList) nodes :=
  ⟨fun h => reads_of_items (gather_ok.mp h), fun h => gather_ok.mpr (h 1)⟩

theorem Reads.append {ls ms : List Line} {a b : List Node} (hl : Reads ls a) (hm : Reads ms b) :
    Reads (ls ++ ms) (a ++ b) := by
  intro n
  rw [items_append (hl.not_error n), hl n, hm, List.map_append]

/-- A line feed behind a script changes nothing in it. -/
theorem Reads.newline {cs : List Char} {nodes : List Node} (h : Reads (linesOf cs) nodes) :
    Reads (linesOf (cs ++ ['\n'])) nodes := by
  rcases linesOf_newline cs with heq | heq
  · rwa [heq]
  · have hskipped : Reads [.skipped] [] := fun n => rfl
    have happend := h.append hskipped
    rwa [heq, ← List.append_nil nodes]

/-- What stands around a line that is a command by itself reads as by itself. -/
theorem Reads.around {ls ms : List Line} {content trailing : List Char} {node : Node}
    {nodes : List Node} (hread : readBrackets content trailing = .ok (.node node))
    (h : Reads (ls ++ .command content trailing :: ms) nodes) :
    ∃ a b, Reads ls a ∧ Reads ms b ∧ nodes = a ++ node :: b := by
  have hbefore := items_before_command (h.not_error 1)
  have hitems := h 1
  rw [items_append hbefore, items, hread] at hitems
  rw [Option.toList_none, List.map_nil, List.nil_append] at hitems
  obtain ⟨a, rest, rfl, ha, hrest⟩ := List.map_eq_append_iff.mp hitems.symm
  obtain ⟨head, b, rfl, hhead, hb⟩ := List.map_eq_cons_iff.mp hrest
  cases hhead
  exact ⟨a, b, reads_of_items ha.symm, reads_of_items hb.symm, rfl⟩

end Script

end StoryPreview
