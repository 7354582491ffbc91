import Mathlib.Data.List.Nodup
import StoryPreview.Proofs.Script.Insertion
import StoryPreview.Proofs.Script.Splicing
/-!
The faults of a script. Each is the fault of one line with a bracket, and they come in the order of these
lines (`exists_line_of_mem_faults`, `pairwise_faults`). A faulty line neither hides a fault of another
line nor makes one: with a command in the place of a line with a bracket exactly the faults of that line
are gone (`faults_set`), and so it is when the line is edited in the text (`parse_faults`).
-/
namespace StoryPreview

/-! ## Editing a line -/

namespace Text

/-- Pieces that are lines with what ends them, the last one possibly without. -/
inductive Cut : List (List Char) → Prop
  | nil : Cut []
  | rest {r : List Char} (h : '\n' ∉ r) (hne : r ≠ []) : Cut [r]
  | line {r : List Char} {ps : List (List Char)} (h : '\n' ∉ r) (hps : Cut ps) :
      Cut ((r ++ ['\n']) :: ps)

theorem cut_pieces (cs : List Char) : Cut (pieces cs) := by
  induction cs with
  | nil => exact .nil
  | cons c cs ih =>
    by_cases hc : c = '\n'
    · rw [hc, pieces_newline]
      exact .line List.not_mem_nil ih
    · have hfirst {r : List Char} (h : '\n' ∉ r) : '\n' ∉ c :: r := by
        rw [List.mem_cons, not_or]
        exact ⟨Ne.symm hc, h⟩
      generalize hp : pieces cs = ps at ih
      cases ih with
      | nil =>
        obtain rfl : cs = [] := by rw [← flatten_pieces cs, hp]; rfl
        rw [pieces_rest (hfirst List.not_mem_nil) (List.cons_ne_nil c [])]
        exact .rest (hfirst List.not_mem_nil) (List.cons_ne_nil c [])
      | rest h hne =>
        rw [pieces_cons hc hp]
        exact .rest (hfirst h) (List.cons_ne_nil _ _)
      | line h hps =>
        rw [pieces_cons hc hp]
        exact .line (hfirst h) hps

/-- The pieces of a text that is put together from pieces. -/
theorem pieces_flatten {ps : List (List Char)} (h : Cut ps) : pieces ps.flatten = ps := by
  induction h with
  | nil => rfl
  | rest h hne => rw [List.flatten_singleton, pieces_rest h hne]
  | line h hps ih =>
    rw [List.flatten_cons, List.append_assoc, List.singleton_append, pieces_append_newline,
      pieces_line h, ih]
    rfl

/-- The text with another line in the place of line `n`, counted from zero. What ends the line stays. -/
def setLine (cs : List Char) (n : Nat) (line : List Char) : List Char :=
  ((pieces cs).modify n fun p => line ++ p.drop (stripBreak p).length).flatten

/-- What ends a line: a line feed, and perhaps a carriage return before it. -/
theorem drop_stripBreak (r : List Char) :
    ∃ e, (e = [] ∨ e = ['\r']) ∧
      (r ++ ['\n']).drop (stripBreak (r ++ ['\n'])).length = e ++ ['\n'] := by
  have hrev : (r ++ ['\n']).reverse = '\n' :: r.reverse := List.reverse_concat
  unfold stripBreak
  split
  · rename_i q hq
    rw [hrev, List.cons_inj_right] at hq
    refine ⟨['\r'], .inr rfl, ?_⟩
    rw [List.reverse_eq_iff.mp hq, List.reverse_cons, List.append_assoc, List.drop_left]
  · rename_i q _ hq
    rw [hrev, List.cons_inj_right] at hq
    refine ⟨[], .inl rfl, ?_⟩
    rw [← hq, List.reverse_reverse, List.drop_left, List.nil_append]
  · rename_i _ hno
    exact absurd hrev (hno _)

end Text

/-- The script with another line in the place of line `n`, counted from one. -/
def replaceLine (source : String) (n : Nat) (line : String) : String :=
  String.ofList (Text.setLine source.toList (n - 1) line.toList)

namespace Script

/-- Lines that are cut out of pieces one of which has another line in the place of its own. -/
theorem cut_modify {ps : List (List Char)} (h : Text.Cut ps) {line : List Char} (hline : '\n' ∉ line)
    (hne : line ≠ []) (n : Nat) :
    Text.Cut (ps.modify n fun p => line ++ p.drop (Text.stripBreak p).length) ∧
      (ps.modify n fun p => line ++ p.drop (Text.stripBreak p).length).map
          (Line.ofText ∘ Text.stripBreak) =
        (ps.map (Line.ofText ∘ Text.stripBreak)).set n (Line.ofText line) := by
  induction h generalizing n with
  | nil => cases n <;> exact ⟨.nil, rfl⟩
  | @rest r h hrest =>
    cases n with
    | zero =>
      have hdrop : r.drop (Text.stripBreak r).length = [] := by
        rw [stripBreak_of_newline_free h, List.drop_length]
      rw [List.modify_zero_cons, hdrop, List.append_nil]
      refine ⟨.rest hline hne, ?_⟩
      rw [List.map_singleton, Function.comp_apply, stripBreak_of_newline_free hline]
      rfl
    | succ n =>
      rw [List.modify_succ_cons, List.modify_nil]
      exact ⟨.rest h hrest, rfl⟩
  | @line r ps h hps ih =>
    cases n with
    | zero =>
      obtain ⟨e, he, hdrop⟩ := Text.drop_stripBreak r
      have hclean : '\n' ∉ line ++ e := by
        rw [List.mem_append, not_or]
        refine ⟨hline, ?_⟩
        rcases he with rfl | rfl <;> decide
      have htrim : Line.ofText (line ++ e) = Line.ofText line := by
        unfold Line.ofText
        rcases he with rfl | rfl
        · rw [List.append_nil]
        · rw [Text.trim_append_blank (by decide)]
      rw [List.modify_zero_cons, hdrop, ← List.append_assoc]
      refine ⟨.line hclean hps, ?_⟩
      rw [List.map_cons, Function.comp_apply, ofText_stripBreak, htrim]
      rfl
    | succ n =>
      obtain ⟨hcut, hlines⟩ := ih n
      rw [List.modify_succ_cons]
      refine ⟨.line h hcut, ?_⟩
      rw [List.map_cons, hlines]
      rfl

/-- Editing a line changes that line and no other. -/
theorem linesOf_setLine (cs : List Char) {line : List Char} (hline : '\n' ∉ line) (hne : line ≠ [])
    (n : Nat) :
    linesOf (Text.setLine cs n line) = (linesOf cs).set n (Line.ofText line) := by
  obtain ⟨hcut, hlines⟩ := cut_modify (Text.cut_pieces cs) hline hne n
  unfold linesOf Text.lines Text.setLine
  rw [Text.pieces_flatten hcut, List.map_map, List.map_map, hlines]

/-! ## Lines with a bracket -/

/-- What the bracket on a line says, if there is one. -/
def Line.bracket? : Line → Option (Except Fault Reading)
  | .command content trailing => some (readBrackets content trailing)
  | .unterminated => some (.error .unterminated)
  | _ => none

theorem Line.bracket_cases (l : Line) :
    l = .skipped ∨ (∃ text, l = .narration text) ∨ ∃ reading, l.bracket? = some reading := by
  cases l with
  | skipped => exact .inl rfl
  | narration text => exact .inr (.inl ⟨text, rfl⟩)
  | unterminated => exact .inr (.inr ⟨_, rfl⟩)
  | command content trailing => exact .inr (.inr ⟨_, rfl⟩)

/-- A line has a bracket if it starts with one, blanks apart. -/
theorem bracket?_ofText (line : List Char) :
    (Line.ofText line).bracket?.isSome = true ↔ "[".toList <+: Text.trim line := by
  unfold Line.ofText
  split
  · rename_i h
    simp [h, Line.bracket?]
  · rename_i h
    simp [h, Line.bracket?]
  · rename_i h
    simp [h, Line.bracket?]
  · rename_i body h
    rw [h]
    split <;> simp [Line.bracket?]
  · rename_i hbracket
    refine ⟨nofun, fun ⟨rest, hrest⟩ => ?_⟩
    exact absurd hrest.symm (hbracket rest)

/-- A line with a bracket that reads by itself is a command that waits for nothing. -/
theorem bracket?_of_parse {line : String} {nodes : List Node} (hline : '\n' ∉ line.toList)
    (hbracket : "[".toList <+: Text.trim line.toList) (h : parse line = .ok nodes) :
    ∃ node, (Line.ofText line.toList).bracket? = some (.ok (.node node)) := by
  have hne : line.toList ≠ [] := by
    intro hnil
    rw [hnil] at hbracket
    exact absurd hbracket (by decide)
  have hitems := parse_ok.mp h 1
  rw [linesOf_rest hline hne] at hitems
  have hno (e : LineFault) : .error e ∉ items none 1 [Line.ofText line.toList] := by
    rw [hitems]
    simp
  obtain ⟨reading, hreading⟩ := Option.isSome_iff_exists.mp ((bracket?_ofText _).mpr hbracket)
  generalize Line.ofText line.toList = l at hno hreading ⊢
  cases l with
  | skipped => cases hreading
  | narration text => cases hreading
  | unterminated => exact absurd List.mem_cons_self (hno _)
  | command content trailing =>
    simp only [items, Option.toList_none, List.map_nil, List.nil_append] at hno
    split at hno
    · rename_i node hread
      exact ⟨node, congrArg some hread⟩
    · exact absurd List.mem_cons_self (hno _)
    · exact absurd List.mem_cons_self (hno _)

/-! ## The faults of lines -/

/-- The faults of the lines from line `n` on, when `waiting` is open. -/
def faults (waiting : Option OpenSpeech) (n : Nat) (ls : List Line) : List LineFault :=
  errors (items waiting n ls)

/-- The fault of a `SAY` for which no text comes, if one waits. -/
def missing (waiting : Option OpenSpeech) : List LineFault :=
  waiting.toList.map fun s => ⟨s.line, .missingText⟩

theorem errors_fault (waiting : Option OpenSpeech) :
    errors (waiting.toList.map OpenSpeech.fault) = missing waiting := by
  cases waiting <;> rfl

theorem faults_nil (waiting : Option OpenSpeech) (n : Nat) : faults waiting n [] = missing waiting :=
  errors_fault waiting

/-- The fault of a bracket on line `n`, if it cannot be read. -/
def misread (n : Nat) : Except Fault Reading → List LineFault
  | .error fault => [⟨n, fault⟩]
  | .ok _ => []

/-- The `SAY` that a bracket on line `n` leaves open. -/
def opened (n : Nat) : Except Fault Reading → Option OpenSpeech
  | .ok (.speech speaker) => some ⟨n, speaker⟩
  | _ => none

/-- The faults that a bracket on line `n` brings, and those of the lines behind it. -/
def faultsBehind (n : Nat) (ls : List Line) (reading : Except Fault Reading) : List LineFault :=
  misread n reading ++ faults (opened n reading) (n + 1) ls

/-- A line with a bracket takes no text, so a `SAY` that waits before it has none. -/
theorem faults_bracket (waiting : Option OpenSpeech) (n : Nat) {l : Line}
    {reading : Except Fault Reading} (h : l.bracket? = some reading) (ls : List Line) :
    faults waiting n (l :: ls) = missing waiting ++ faultsBehind n ls reading := by
  cases l with
  | skipped => cases h
  | narration text => cases h
  | unterminated =>
    cases h
    rw [faults, items, errors_append, errors_fault]
    rfl
  | command content trailing =>
    obtain rfl : readBrackets content trailing = reading := Option.some.inj h
    rw [faults, items, errors_append, errors_fault]
    cases readBrackets content trailing with
    | error fault => rfl
    | ok reading => cases reading <;> rfl

/-! ## Where faults are -/

/-- The lines before which no fault is reported: a `SAY` that waits stands before line `n`. -/
def Before (waiting : Option OpenSpeech) (n : Nat) : Prop := ∀ s ∈ waiting, s.line < n

theorem before_none (n : Nat) : Before none n := nofun

theorem Before.succ {waiting : Option OpenSpeech} {n : Nat} (h : Before waiting n) :
    Before waiting (n + 1) := fun s hs => Nat.lt_succ_of_lt (h s hs)

theorem line_of_mem_opened {n : Nat} {reading : Except Fault Reading} {s : OpenSpeech}
    (h : s ∈ opened n reading) : s.line = n := by
  unfold opened at h
  split at h
  · cases h
    rfl
  · cases h

theorem before_opened (n : Nat) (reading : Except Fault Reading) :
    Before (opened n reading) (n + 1) := fun s hs => by
  rw [line_of_mem_opened hs]
  exact Nat.lt_succ_self n

theorem Before.lt_of_mem_missing {waiting : Option OpenSpeech} {n : Nat} (h : Before waiting n)
    {f : LineFault} (hf : f ∈ missing waiting) : f.line < n := by
  obtain ⟨s, hs, rfl⟩ := List.mem_map.mp hf
  exact h s (Option.mem_toList.mp hs)

theorem line_of_mem_missing_opened {n : Nat} {reading : Except Fault Reading} {f : LineFault}
    (h : f ∈ missing (opened n reading)) : f.line = n := by
  obtain ⟨s, hs, rfl⟩ := List.mem_map.mp h
  exact line_of_mem_opened (Option.mem_toList.mp hs)

theorem line_of_mem_misread {n : Nat} {reading : Except Fault Reading} {f : LineFault}
    (h : f ∈ misread n reading) : f.line = n := by
  cases reading with
  | error fault => rw [List.mem_singleton.mp h]
  | ok reading => cases h

/-- A fault is that of the `SAY` that waits, or of a line with a bracket. -/
theorem exists_line_of_mem_faults {waiting : Option OpenSpeech} {n : Nat} {ls : List Line}
    {f : LineFault} (h : f ∈ faults waiting n ls) :
    f ∈ missing waiting ∨
      ∃ k l, ls[k]? = some l ∧ l.bracket?.isSome = true ∧ f.line = n + k := by
  induction ls generalizing waiting n with
  | nil =>
    rw [faults_nil] at h
    exact .inl h
  | cons l ls ih =>
    have hbehind {waiting : Option OpenSpeech} (h : f ∈ faults waiting (n + 1) ls) :
        f ∈ missing waiting ∨
          ∃ k l', (l :: ls)[k]? = some l' ∧ l'.bracket?.isSome = true ∧ f.line = n + k := by
      refine (ih h).imp id fun ⟨k, l', hl', hbracket, hline⟩ => ⟨k + 1, l', ?_, hbracket, ?_⟩
      · rwa [List.getElem?_cons_succ]
      · omega
    obtain rfl | ⟨text, rfl⟩ | ⟨reading, hl⟩ := l.bracket_cases
    · exact hbehind h
    · exact .inr ((hbehind h).resolve_left List.not_mem_nil)
    · have hhere (hline : f.line = n) :
          ∃ k l', (l :: ls)[k]? = some l' ∧ l'.bracket?.isSome = true ∧ f.line = n + k :=
        ⟨0, l, rfl, by rw [hl]; rfl, hline⟩
      rw [faults_bracket waiting n hl, List.mem_append, faultsBehind, List.mem_append] at h
      rcases h with h | h | h
      · exact .inl h
      · exact .inr (hhere (line_of_mem_misread h))
      · exact .inr ((hbehind h).elim (fun hopen => hhere (line_of_mem_missing_opened hopen)) id)

theorem le_of_mem_faults {n : Nat} {ls : List Line} {f : LineFault} (h : f ∈ faults none n ls) :
    n ≤ f.line := by
  obtain ⟨k, _, _, _, hline⟩ := (exists_line_of_mem_faults h).resolve_left List.not_mem_nil
  omega

theorem le_of_mem_faultsBehind {n : Nat} {ls : List Line} {reading : Except Fault Reading}
    {f : LineFault} (h : f ∈ faultsBehind n ls reading) : n ≤ f.line := by
  rcases List.mem_append.mp h with h | h
  · exact Nat.le_of_eq (line_of_mem_misread h).symm
  · rcases exists_line_of_mem_faults h with hopen | ⟨k, _, _, _, hline⟩
    · exact Nat.le_of_eq (line_of_mem_missing_opened hopen).symm
    · omega

/-- Faults come in the order of their lines, no two on one line. -/
theorem pairwise_faults {waiting : Option OpenSpeech} {n : Nat} (hw : Before waiting n)
    (ls : List Line) : (faults waiting n ls).Pairwise fun f g => f.line < g.line := by
  have hmissing (waiting : Option OpenSpeech) :
      (missing waiting).Pairwise fun f g => f.line < g.line := by
    cases waiting with
    | none => exact .nil
    | some s => exact List.pairwise_singleton _ _
  induction ls generalizing waiting n with
  | nil =>
    rw [faults_nil]
    exact hmissing waiting
  | cons l ls ih =>
    obtain rfl | ⟨text, rfl⟩ | ⟨reading, hl⟩ := l.bracket_cases
    · exact ih hw.succ
    · exact ih (before_none _)
    · rw [faults_bracket waiting n hl]
      refine List.pairwise_append.mpr ⟨hmissing waiting, ?_, fun f hf g hg => ?_⟩
      · rw [faultsBehind]
        cases reading with
        | error fault =>
          exact List.pairwise_cons.mpr ⟨fun g hg => le_of_mem_faults hg, ih (before_none _)⟩
        | ok reading => exact ih (before_opened n (.ok reading))
      · exact Nat.lt_of_lt_of_le (hw.lt_of_mem_missing hf) (le_of_mem_faultsBehind hg)

/-! ## One line for another -/

/-- The faults that are not on line `m`. -/
def elsewhere (m : Nat) (fs : List LineFault) : List LineFault := fs.filter fun f => f.line ≠ m

theorem elsewhere_append (m : Nat) (fs gs : List LineFault) :
    elsewhere m (fs ++ gs) = elsewhere m fs ++ elsewhere m gs := List.filter_append fs gs

theorem elsewhere_eq_self {m : Nat} {fs : List LineFault} (h : ∀ f ∈ fs, f.line ≠ m) :
    elsewhere m fs = fs := List.filter_eq_self.mpr fun f hf => decide_eq_true (h f hf)

theorem elsewhere_of_lt {m n : Nat} (h : m < n) (ls : List Line) :
    elsewhere m (faults none n ls) = faults none n ls :=
  elsewhere_eq_self fun f hf => by
    have hle := le_of_mem_faults hf
    omega

theorem Before.elsewhere_missing {waiting : Option OpenSpeech} {n m : Nat} (hw : Before waiting n)
    (h : n ≤ m) : elsewhere m (missing waiting) = missing waiting :=
  elsewhere_eq_self fun f hf => by
    have hlt := hw.lt_of_mem_missing hf
    omega

/-- A `SAY` that waits brings its own fault and no other. -/
theorem elsewhere_open {s : OpenSpeech} {n : Nat} (h : s.line < n) (ls : List Line) :
    elsewhere s.line (faults (some s) n ls) = faults none n ls := by
  have hself : elsewhere s.line (missing (some s)) = [] := by simp [elsewhere, missing]
  induction ls generalizing n with
  | nil => exact hself
  | cons l ls ih =>
    -- A text serves the `SAY`; a bracket leaves it without one, and is then read as if none waited.
    obtain rfl | ⟨text, rfl⟩ | ⟨reading, hl⟩ := l.bracket_cases
    · exact ih (Nat.lt_succ_of_lt h)
    · exact elsewhere_of_lt (Nat.lt_succ_of_lt h) ls
    · rw [faults_bracket (some s) n hl, faults_bracket none n hl, elsewhere_append, hself]
      refine elsewhere_eq_self fun f hf => ?_
      have hle := le_of_mem_faultsBehind hf
      omega

/-- A bracket on line `n` brings faults on line `n` and no others. -/
theorem elsewhere_faultsBehind (n : Nat) (ls : List Line) (reading : Except Fault Reading) :
    elsewhere n (faultsBehind n ls reading) = faults none (n + 1) ls := by
  have hmisread : elsewhere n (misread n reading) = [] :=
    List.filter_eq_nil_iff.mpr fun f hf => by simp [line_of_mem_misread hf]
  rw [faultsBehind, elsewhere_append, hmisread, List.nil_append]
  cases hopened : opened n reading with
  | none => exact elsewhere_of_lt (Nat.lt_succ_self n) ls
  | some s =>
    obtain rfl : s.line = n := line_of_mem_opened hopened
    exact elsewhere_open (Nat.lt_succ_self s.line) ls

/-- With a command in the place of a line with a bracket the faults of that line are gone, and no others
come or go. -/
theorem faults_set {waiting : Option OpenSpeech} {n k : Nat} (hw : Before waiting n)
    {ls : List Line} {l l' : Line} {node : Node} (hl : ls[k]? = some l)
    (hbracket : l.bracket?.isSome = true) (hl' : l'.bracket? = some (.ok (.node node))) :
    faults waiting n (ls.set k l') = elsewhere (n + k) (faults waiting n ls) := by
  induction ls generalizing waiting n k with
  | nil => cases hl
  | cons l₁ ls ih =>
    cases k with
    | zero =>
      obtain rfl : l₁ = l := Option.some.inj hl
      obtain ⟨reading, hreading⟩ := Option.isSome_iff_exists.mp hbracket
      rw [List.set_cons_zero, faults_bracket waiting n hl', faults_bracket waiting n hreading,
        Nat.add_zero, elsewhere_append, hw.elsewhere_missing (Nat.le_refl n), elsewhere_faultsBehind]
      rfl
    | succ k =>
      have hrest {waiting : Option OpenSpeech} (hw : Before waiting (n + 1)) :
          faults waiting (n + 1) (ls.set k l') =
            elsewhere (n + (k + 1)) (faults waiting (n + 1) ls) := by
        rw [ih hw hl, Nat.add_right_comm, Nat.add_assoc]
      rw [List.set_cons_succ]
      obtain rfl | ⟨text, rfl⟩ | ⟨reading, hreading⟩ := l₁.bracket_cases
      · exact hrest hw.succ
      · exact hrest (before_none _)
      · have hmisread : elsewhere (n + (k + 1)) (misread n reading) = misread n reading :=
          elsewhere_eq_self fun f hf => by
            have hline := line_of_mem_misread hf
            omega
        rw [faults_bracket waiting n hreading, faults_bracket waiting n hreading, elsewhere_append,
          hw.elsewhere_missing (Nat.le_add_right n _), faultsBehind, faultsBehind, elsewhere_append,
          hmisread, hrest (before_opened n reading)]

/-! ## Scripts -/

theorem parse_eq (source : String) :
    parse source =
      if (faults none 1 (linesOf source.toList)).isEmpty then
        .ok (values (items none 1 (linesOf source.toList)))
      else .error (faults none 1 (linesOf source.toList)) := gather_eq _

theorem parse_error {source : String} {fs : List LineFault} :
    parse source = .error fs ↔ faults none 1 (linesOf source.toList) = fs ∧ fs ≠ [] := by
  rw [parse_eq]
  cases faults none 1 (linesOf source.toList) with
  | nil => exact ⟨nofun, fun h => absurd h.1.symm h.2⟩
  | cons f rest =>
    refine ⟨fun h => ?_, fun h => congrArg Except.error h.1⟩
    cases h
    exact ⟨rfl, List.cons_ne_nil f rest⟩

/-- Of faults in the order of their lines those on other lines are all but one. -/
theorem elsewhere_eq_erase {fs : List LineFault} (h : fs.Pairwise fun f g => f.line < g.line)
    {f : LineFault} (hf : f ∈ fs) : elsewhere f.line fs = fs.erase f := by
  have hnodup : (fs.map LineFault.line).Nodup := (List.pairwise_map.mpr h).nodup
  rw [(List.Nodup.of_map LineFault.line hnodup).erase_eq_filter]
  refine List.filter_congr fun g hg => ?_
  have hiff : g.line ≠ f.line ↔ g ≠ f :=
    not_congr ⟨fun hline => List.inj_on_of_nodup_map hnodup hg hf hline, congrArg LineFault.line⟩
  rw [Bool.eq_iff_iff, decide_eq_true_iff, bne_iff_ne]
  exact hiff

/-- The faults of a script are reported in the order of their lines, each on a line of the script that
starts with a bracket, blanks apart. And each is the fault of its line alone: with any line in its place
that starts with a bracket and reads by itself, exactly that fault is gone. The others are as they were,
and if there are none the script reads. -/
theorem parse_faults {source : String} {fs : List LineFault} (h : parse source = .error fs) :
    (fs.map LineFault.line).Pairwise (· < ·) ∧
      ∀ f ∈ fs, 1 ≤ f.line ∧ f.line ≤ (Text.lines source.toList).length ∧
        (∃ line, (Text.lines source.toList)[f.line - 1]? = some line ∧
          "[".toList <+: Text.trim line) ∧
        ∀ line nodes, '\n' ∉ line.toList → "[".toList <+: Text.trim line.toList →
          parse line = .ok nodes →
          if fs.erase f = [] then ∃ all, parse (replaceLine source f.line line) = .ok all
          else parse (replaceLine source f.line line) = .error (fs.erase f) := by
  obtain ⟨hfaults, _⟩ := parse_error.mp h
  have hsorted : fs.Pairwise fun f g => f.line < g.line := by
    rw [← hfaults]
    exact pairwise_faults (before_none 1) _
  refine ⟨List.pairwise_map.mpr hsorted, fun f hf => ?_⟩
  rw [← hfaults] at hf
  obtain ⟨k, l, hl, hbracket, hline⟩ :=
    (exists_line_of_mem_faults hf).resolve_left List.not_mem_nil
  rw [hfaults] at hf
  have hplace : f.line - 1 = k := by omega
  obtain ⟨text, htext, rfl⟩ : ∃ text, (Text.lines source.toList)[k]? = some text ∧
      Line.ofText text = l := by
    rwa [linesOf, List.getElem?_map, Option.map_eq_some_iff] at hl
  obtain ⟨hk, _⟩ := List.getElem?_eq_some_iff.mp htext
  refine ⟨by omega, by omega, ⟨text, by rwa [hplace], (bracket?_ofText text).mp hbracket⟩, ?_⟩
  intro line nodes hnewline hstart hparse
  obtain ⟨node, hnode⟩ := bracket?_of_parse hnewline hstart hparse
  have hne : line.toList ≠ [] := by
    intro hnil
    rw [hnil] at hstart
    exact absurd hstart (by decide)
  have hedited : faults none 1 (linesOf (replaceLine source f.line line).toList) = fs.erase f := by
    rw [replaceLine, String.toList_ofList, hplace, linesOf_setLine _ hnewline hne,
      faults_set (before_none 1) hl hbracket hnode, hfaults, ← hline, elsewhere_eq_erase hsorted hf]
  rw [parse_eq, hedited]
  split
  · rename_i hnil
    exact ⟨_, if_pos (List.isEmpty_iff.mpr hnil)⟩
  · rename_i hmore
    exact if_neg (mt List.isEmpty_iff.mp hmore)

/-- A script with three faults: a `SAY` that finds a bracket before a text, the bracket it finds, which is
not closed, and a command that nobody knows. -/
def faulty : String :=
  "[SAY speaker=Ann]\r\n# a pier\r\n  [SAY speaker=\"Bob]\r\n[NOPE]\n[SAY]\n<!-- aside -->\nHello."

/-- With the second bracket closed the `SAY` before it still has no text, and the command behind it is
still unknown. -/
theorem parse_faults_faulty :
    parse faulty = .error [⟨1, .missingText⟩, ⟨3, .unterminated⟩, ⟨4, .unknownCommand "NOPE"⟩] ∧
      parse "[SAY speaker=Bob] Here." = .ok [.say (some "Bob") "Here."] ∧
      replaceLine faulty 3 "[SAY speaker=Bob] Here." =
        "[SAY speaker=Ann]\r\n# a pier\r\n[SAY speaker=Bob] Here.\r\n[NOPE]\n[SAY]\n" ++
          "<!-- aside -->\nHello." ∧
      parse (replaceLine faulty 3 "[SAY speaker=Bob] Here.") =
        .error [⟨1, .missingText⟩, ⟨4, .unknownCommand "NOPE"⟩] := by
  have h : parse faulty =
      .error [⟨1, .missingText⟩, ⟨3, .unterminated⟩, ⟨4, .unknownCommand "NOPE"⟩] := by
    decide +kernel
  have hline : parse "[SAY speaker=Bob] Here." = .ok [.say (some "Bob") "Here."] := by decide +kernel
  obtain ⟨_, hfault⟩ := parse_faults h
  obtain ⟨_, _, _, hreplace⟩ := hfault ⟨3, .unterminated⟩ (by decide)
  exact ⟨h, hline, by decide +kernel, hreplace _ _ (by decide) (by decide) hline⟩

end Script

end StoryPreview
