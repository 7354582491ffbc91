import StoryPreview.Script.Includes
/-!
Scripts that are put together. What stands behind the last line feed of a text is a line of its own, so
a text that is empty or ends with a line feed keeps its lines when another is appended
(`lines_append`). A script that reads without a fault leaves no `SAY` open, so what is appended is read
as by itself (`parse_append`), and inclusions are expanded one command at a time (`expand_append_ok`).
-/
namespace StoryPreview

/-! ## Lines -/

namespace Text

/-- A text behind which another line begins. -/
def EndsLine (cs : List Char) : Prop := cs = [] ∨ ∃ b, cs = b ++ ['\n']

theorem pieces_newline (cs : List Char) : pieces ('\n' :: cs) = ['\n'] :: pieces cs := rfl

theorem pieces_cons {c : Char} (hc : c ≠ '\n') {cs p : List Char} {ps : List (List Char)}
    (h : pieces cs = p :: ps) : pieces (c :: cs) = (c :: p) :: ps := by
  unfold pieces at h ⊢
  rw [List.foldr_cons, if_neg hc, h]

theorem pieces_append_newline (a b : List Char) :
    pieces (a ++ '\n' :: b) = pieces (a ++ ['\n']) ++ pieces b := by
  induction a with
  | nil => rfl
  | cons c a ih =>
    rw [List.cons_append, List.cons_append]
    by_cases hc : c = '\n'
    · rw [hc, pieces_newline, pieces_newline, ih, List.cons_append]
    · cases hp : pieces (a ++ ['\n']) with
      | nil =>
        have hflat := flatten_pieces (a ++ ['\n'])
        rw [hp] at hflat
        simp at hflat
      | cons p ps =>
        rw [hp, List.cons_append] at ih
        rw [pieces_cons hc hp, pieces_cons hc ih, List.cons_append]

theorem lines_append {a : List Char} (h : EndsLine a) (b : List Char) :
    lines (a ++ b) = lines a ++ lines b := by
  rcases h with rfl | ⟨c, rfl⟩
  · rfl
  · unfold lines
    rw [List.append_assoc, List.singleton_append, pieces_append_newline, List.map_append]

theorem endsLine_toList {a : String} (h : a = "" ∨ ∃ b, a = b ++ "\n") : EndsLine a.toList := by
  rcases h with rfl | ⟨b, rfl⟩
  · exact .inl rfl
  · exact .inr ⟨b.toList, by simp⟩

end Text

/-! ## Items -/

namespace Script

theorem gather_map_ok {ε α : Type} (as : List α) :
    gather (as.map Except.ok : List (Except ε α)) = .ok as := by
  induction as with
  | nil => rfl
  | cons a as ih => rw [List.map_cons, gather, ih]

theorem eq_map_of_gather {ε α : Type} {xs : List (Except ε α)} {as : List α}
    (h : gather xs = .ok as) : xs = as.map .ok := by
  induction xs generalizing as with
  | nil =>
    cases h
    rfl
  | cons x xs ih =>
    rw [gather.eq_def] at h
    cases x with
    | error e =>
      dsimp only at h
      split at h <;> cases h
    | ok a =>
      dsimp only at h
      split at h
      · rename_i hxs
        cases h
        rw [ih hxs, List.map_cons]
      · cases h

theorem gather_ok {ε α : Type} {xs : List (Except ε α)} {as : List α} :
    gather xs = .ok as ↔ xs = as.map .ok :=
  ⟨eq_map_of_gather, fun h => h ▸ gather_map_ok as⟩

theorem gather_append_ok {ε α : Type} {xs ys : List (Except ε α)} {cs : List α} :
    gather (xs ++ ys) = .ok cs ↔
      ∃ as bs, gather xs = .ok as ∧ gather ys = .ok bs ∧ cs = as ++ bs := by
  simp only [gather_ok]
  constructor
  · intro h
    obtain ⟨as, bs, rfl, has, hbs⟩ := List.map_eq_append_iff.mp h.symm
    exact ⟨as, bs, has.symm, hbs.symm, rfl⟩
  · rintro ⟨as, bs, rfl, rfl, rfl⟩
    rw [List.map_append]

/-- Behind lines without a fault no `SAY` is open. -/
theorem items_append {waiting : Option OpenSpeech} {n : Nat} {ls : List Line}
    (h : ∀ e, .error e ∉ items waiting n ls) (ms : List Line) :
    items waiting n (ls ++ ms) = items waiting n ls ++ items none (n + ls.length) ms := by
  induction ls generalizing waiting n with
  | nil =>
    cases waiting with
    | none => rfl
    | some s => exact absurd (List.mem_singleton_self _) (h ⟨s.line, .missingText⟩)
  | cons l ls ih =>
    have hlen : n + (l :: ls).length = n + 1 + ls.length := by
      rw [List.length_cons]
      omega
    rw [hlen, List.cons_append]
    cases l with
    | skipped => exact ih h
    | narration text =>
      simp only [items, List.cons_append]
      rw [ih fun e he => h e (List.mem_cons_of_mem _ he)]
    | unterminated =>
      exact absurd (List.mem_append_right _ List.mem_cons_self) (h ⟨n, .unterminated⟩)
    | command content trailing =>
      cases waiting with
      | some s => exact absurd (List.mem_append_left _ List.mem_cons_self) (h ⟨s.line, .missingText⟩)
      | none =>
        simp only [items, Option.toList_none, List.map_nil, List.nil_append] at h ⊢
        split at h
        · rw [ih fun e he => h e (List.mem_cons_of_mem _ he), List.cons_append]
        · exact ih h
        · exact absurd List.mem_cons_self (h _)

/-- What is appended to a script without faults is read as by itself, but for the numbers of its
lines. -/
theorem parse_append {a : String} {nodes : List Node} (ha : Text.EndsLine a.toList)
    (hparse : parse a = .ok nodes) (b : String) :
    parse (a ++ b) =
      gather (nodes.map .ok ++
        items none (1 + (Text.lines a.toList).length) ((Text.lines b.toList).map Line.ofText)) := by
  unfold parse at hparse ⊢
  have hitems := gather_ok.mp hparse
  rw [String.toList_append, Text.lines_append ha, List.map_append, items_append, hitems,
    List.length_map]
  intro e he
  rw [hitems] at he
  simp at he

end Script

/-! ## Inclusions -/

namespace Includes

theorem items_append (inc : Includes) (a b : List Node) :
    inc.items (a ++ b) = inc.items a ++ inc.items b := by
  unfold items
  cases inc.entries.length with
  | zero => exact List.flatMap_append
  | succ depth => exact List.flatMap_append

theorem expand_append_ok {inc : Includes} {a b nodes : List Node} :
    inc.expand (a ++ b) = .ok nodes ↔
      ∃ na nb, inc.expand a = .ok na ∧ inc.expand b = .ok nb ∧ nodes = na ++ nb := by
  unfold expand
  rw [items_append, Script.gather_append_ok]

end Includes

end StoryPreview
