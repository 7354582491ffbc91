import Mathlib.Data.List.Forall2
import StoryPreview.Proofs.Script.Insertion
import StoryPreview.Proofs.Script.Quoted
/-!
Written commands. `Node.written` says how a command is written on a line, its arguments in double quotes
and in order; `Node.Writable` says of which commands that can be done: quotes and line feeds have no
written form, a branch without choices is no command, and the text of a `SAY` is trimmed. Reading undoes
writing (`parse_of_written`).
-/
namespace StoryPreview

open Text (isBlank trim trimStart)

/-! ## Writing -/

/-- The words that stand for a comparison. -/
def Comparison.spellings : Comparison → List String
  | .equal => ["eq", "=="]
  | .notEqual => ["ne", "!="]
  | .less => ["lt", "<"]
  | .lessOrEqual => ["le", "<="]
  | .greater => ["gt", ">"]
  | .greaterOrEqual => ["ge", ">="]

/-- The words that stand for an operation. -/
def Operation.spellings : Operation → List String
  | .add => ["add", "+"]
  | .subtract => ["sub", "-"]
  | .multiply => ["mul", "*"]
  | .divide => ["div", "/"]

/-- A command as it is written: its name, its arguments by their keys, and what stands behind its
bracket. -/
structure WrittenCommand where
  command : String
  arguments : List (String × String)
  trailing : String
  deriving DecidableEq

/-- The line of a written command. -/
def WrittenCommand.line (w : WrittenCommand) : String :=
  "[" ++ w.command ++ String.join (w.arguments.map fun a => " " ++ a.1 ++ "=\"" ++ a.2 ++ "\"") ++
    "]" ++ w.trailing

namespace Node

/-- The ways to write a command. Comparisons and operations have two spellings each; `gap` is what
stands between the bracket of a `SAY` and its text. How to write the number of a pause is left open. -/
def written (gap : String) : Node → List WrittenCommand
  | say speaker text => [⟨"SAY", speaker.toList.map fun s => ("speaker", s), gap ++ text⟩]
  | showImage layer name => [⟨"SHOW_IMAGE", [("layer", layer), ("name", name)], ""⟩]
  | playBgm name => [⟨"PLAY_BGM", [("name", name)], ""⟩]
  | playSe name => [⟨"PLAY_SE", [("name", name)], ""⟩]
  | playMovie name => [⟨"PLAY_MOVIE", [("name", name)], ""⟩]
  | wait _ => []
  | branch choices =>
    [⟨"BRANCH", choices.flatMap fun c => [("choice", c.text), ("label", c.target)], ""⟩]
  | jump target => [⟨"JUMP", [("label", target)], ""⟩]
  | jumpIf var cmp value target =>
    cmp.spellings.map fun c =>
      ⟨"JUMP_IF", [("var", var), ("cmp", c), ("value", value), ("label", target)], ""⟩
  | set name value => [⟨"SET", [("name", name), ("value", value)], ""⟩]
  | modify name op value =>
    op.spellings.map fun o => ⟨"MODIFY", [("name", name), ("op", o), ("value", value)], ""⟩
  | label name => [⟨"LABEL", [("name", name)], ""⟩]
  | clearLayer layer => [⟨"CLEAR_LAYER", [("layer", layer)], ""⟩]
  | call name args => [⟨"CALL", ("name", name) :: args.map fun a => ("arg", a), ""⟩]
  | inclusion name => [⟨"INCLUDE", [("name", name)], ""⟩]

/-- The texts in a command. -/
def strings : Node → List String
  | say speaker text => text :: speaker.toList
  | showImage layer name => [layer, name]
  | playBgm name | playSe name | playMovie name => [name]
  | wait _ => []
  | branch choices => choices.flatMap fun c => [c.text, c.target]
  | jump target => [target]
  | jumpIf var _ value target => [var, value, target]
  | set name value => [name, value]
  | modify name _ value => [name, value]
  | label name => [name]
  | clearLayer layer => [layer]
  | call name args => name :: args
  | inclusion name => [name]

end Node

/-- A text that can stand in double quotes on one line. -/
def Clean (s : String) : Prop := '"' ∉ s.toList ∧ '\n' ∉ s.toList

instance : DecidablePred Clean := fun _ => inferInstanceAs (Decidable (_ ∧ _))

theorem Comparison.clean_spellings (cmp : Comparison) : ∀ c ∈ cmp.spellings, Clean c := by
  cases cmp <;> decide

theorem Operation.clean_spellings (op : Operation) : ∀ o ∈ op.spellings, Clean o := by
  cases op <;> decide

/-- A command that can be written with its arguments in quotes. -/
def Node.Writable (node : Node) : Prop :=
  (∀ s ∈ node.strings, Clean s) ∧
    match node with
    | say _ text => text ≠ "" ∧ trim text.toList = text.toList
    | branch choices => choices ≠ []
    | wait _ => False
    | _ => True

instance : DecidablePred Node.Writable
  | .say .. | .showImage .. | .playBgm .. | .playSe .. | .playMovie .. | .wait .. | .branch ..
  | .jump .. | .jumpIf .. | .set .. | .modify .. | .label .. | .clearLayer .. | .call ..
  | .inclusion .. => inferInstanceAs (Decidable (_ ∧ _))

/-! ## Trimmed texts -/

namespace Text

/-- Blanks in front are trimmed. -/
theorem trim_append_of_blank {gap : List Char} (h : ∀ c ∈ gap, isBlank c = true) (cs : List Char) :
    trim (gap ++ cs) = trim cs := by
  unfold trim trimStart
  rw [List.dropWhile_append_of_pos h]

/-- A trimmed text does not end with a blank. -/
theorem not_isBlank_of_trim {cs : List Char} (h : trim cs = cs) :
    ∀ c, cs.getLast? = some c → isBlank c = false := by
  intro c hc
  have hfirst := List.head?_dropWhile_not isBlank (trimStart cs).reverse
  rw [← h] at hc
  unfold trim trimEnd at hc
  rw [List.getLast?_reverse] at hc
  rw [hc] at hfirst
  exact hfirst

end Text

namespace Script

/-! ## Arguments -/

/-- An argument that is read as it is written. -/
def ArgumentFits (a : String × String) : Prop := (∀ c ∈ a.1.toList, Plain c) ∧ Clean a.2

theorem argumentFits_nil : ∀ a ∈ ([] : List (String × String)), ArgumentFits a :=
  fun _ h => nomatch h

theorem argumentFits_cons {key value : String} {arguments : List (String × String)}
    (hkey : (key.toList.all fun c => decide (Plain c)) = true) (hvalue : Clean value)
    (h : ∀ a ∈ arguments, ArgumentFits a) : ∀ a ∈ (key, value) :: arguments, ArgumentFits a :=
  List.forall_mem_cons.mpr ⟨⟨plain_of_all hkey, hvalue⟩, h⟩

/-- The spellings of a comparison are all that is read as it. -/
theorem comparison?_ok {c : String} {cmp : Comparison} :
    comparison? c = .ok cmp ↔ c ∈ cmp.spellings := by
  constructor
  · intro h
    unfold comparison? at h
    split at h <;> cases h <;> decide
  · intro h
    cases cmp <;> simp only [Comparison.spellings, List.mem_cons, List.not_mem_nil, or_false] at h <;>
      rcases h with rfl | rfl <;> rfl

theorem operation?_ok {o : String} {op : Operation} :
    operation? o = .ok op ↔ o ∈ op.spellings := by
  constructor
  · intro h
    unfold operation? at h
    split at h <;> cases h <;> decide
  · intro h
    cases op <;> simp only [Operation.spellings, List.mem_cons, List.not_mem_nil, or_false] at h <;>
      rcases h with rfl | rfl <;> rfl

theorem pairChoices_map (choices : List Choice) :
    pairChoices (choices.map Choice.text) (choices.map Choice.target) = choices := by
  induction choices with
  | nil => rfl
  | cons c choices ih => rw [List.map_cons, List.map_cons, pairChoices, ih]

/-- The arguments of a branch. -/
def alternating (choices : List Choice) : List (String × String) :=
  choices.flatMap fun c => [("choice", c.text), ("label", c.target)]

theorem all_alternating (choices : List Choice) :
    Arguments.all ⟨[], alternating choices⟩ "choice" = choices.map Choice.text ∧
      Arguments.all ⟨[], alternating choices⟩ "label" = choices.map Choice.target := by
  induction choices with
  | nil => exact ⟨rfl, rfl⟩
  | cons c choices ih =>
    exact ⟨congrArg (c.text :: ·) ih.1, congrArg (c.target :: ·) ih.2⟩

/-- Choices and labels that alternate are paired as they were. -/
theorem choices?_alternating {choices : List Choice} (h : choices ≠ []) :
    choices? ⟨[], alternating choices⟩ = .ok choices := by
  unfold choices?
  rw [(all_alternating choices).1, (all_alternating choices).2]
  dsimp only
  rw [pairChoices_map, if_neg h, if_neg (by simp)]

theorem all_arg (args : List String) :
    Arguments.all ⟨[], args.map fun a => ("arg", a)⟩ "arg" = args := by
  induction args with
  | nil => rfl
  | cons a args ih => exact congrArg (a :: ·) ih

/-! ## Commands -/

/-- A written command that is read as a command. -/
structure Fits (w : WrittenCommand) (node : Node) : Prop where
  command_ne : w.command.toList ≠ []
  command : ∀ c ∈ w.command.toList, Plain c
  arguments : ∀ a ∈ w.arguments, ArgumentFits a
  trailing : '\n' ∉ w.trailing.toList
  trailing_last : ∀ c, w.trailing.toList.getLast? = some c → isBlank c = false
  read : readCommand w.command ⟨[], w.arguments⟩ (trim w.trailing.toList) = .ok (.node node)

/-- Most commands have nothing behind their bracket. -/
theorem fits_bracket {command : String} {arguments : List (String × String)} {node : Node}
    (hne : command.toList ≠ [])
    (hcommand : (command.toList.all fun c => decide (Plain c)) = true)
    (harguments : ∀ a ∈ arguments, ArgumentFits a)
    (hread : readCommand command ⟨[], arguments⟩ [] = .ok (.node node)) :
    Fits ⟨command, arguments, ""⟩ node where
  command_ne := hne
  command := plain_of_all hcommand
  arguments := harguments
  trailing := List.not_mem_nil
  trailing_last := fun _ h => nomatch h
  read := hread

theorem fits_say {gap text : String} {speaker : Option String}
    (hgap : ∀ c ∈ gap.toList, isBlank c = true ∧ c ≠ '\n') (hspeaker : ∀ s ∈ speaker, Clean s)
    (hclean : Clean text) (hne : text ≠ "") (htrim : trim text.toList = text.toList) :
    Fits ⟨"SAY", speaker.toList.map fun s => ("speaker", s), gap ++ text⟩ (.say speaker text) := by
  have hne_command : "SAY".toList ≠ [] := by decide
  have hcommand : ("SAY".toList.all fun c => decide (Plain c)) = true := by decide
  have htext : text.toList ≠ [] := by simpa using hne
  have htrailing : trim (gap ++ text).toList = text.toList := by
    rw [String.toList_append, Text.trim_append_of_blank fun c hc => (hgap c hc).1, htrim]
  refine ⟨hne_command, plain_of_all hcommand, ?_, ?_, ?_, ?_⟩
  · cases speaker with
    | none => exact argumentFits_nil
    | some s => exact argumentFits_cons (by decide) (hspeaker s rfl) argumentFits_nil
  · rw [String.toList_append, List.mem_append, not_or]
    exact ⟨fun h => (hgap _ h).2 rfl, hclean.2⟩
  · intro c hc
    rw [String.toList_append, List.getLast?_append_of_ne_nil _ htext] at hc
    exact Text.not_isBlank_of_trim htrim c hc
  · have hread : readCommand "SAY" ⟨[], speaker.toList.map fun s => ("speaker", s)⟩ text.toList =
        if text.toList = [] then .ok (.speech speaker)
        else .ok (.node (.say speaker (String.ofList text.toList))) := by
      cases speaker <;> rfl
    dsimp only
    rw [htrailing, hread, if_neg htext, String.ofList_toList]

theorem fits_branch {choices : List Choice} (hne : choices ≠ [])
    (hclean : ∀ c ∈ choices, Clean c.text ∧ Clean c.target) :
    Fits ⟨"BRANCH", alternating choices, ""⟩ (.branch choices) := by
  refine fits_bracket (by decide) (by decide) ?_ ?_
  · intro a ha
    obtain ⟨c, hc, ha⟩ := List.mem_flatMap.mp ha
    obtain ⟨htext, htarget⟩ := hclean c hc
    exact argumentFits_cons (by decide) htext
      (argumentFits_cons (by decide) htarget argumentFits_nil) a ha
  · show (choices? ⟨[], alternating choices⟩ >>= fun cs => pure (Reading.node (.branch cs))) = _
    rw [choices?_alternating hne]
    rfl

/-- A command is read from every way to write it. -/
theorem fits_of_written {gap : String} (hgap : ∀ c ∈ gap.toList, isBlank c = true ∧ c ≠ '\n')
    {node : Node} (hnode : node.Writable) {w : WrittenCommand} (hw : w ∈ node.written gap) :
    Fits w node := by
  obtain ⟨hstrings, hmore⟩ := hnode
  cases node with
  | say speaker text =>
    obtain rfl := List.mem_singleton.mp hw
    refine fits_say hgap (fun s hs => hstrings s ?_) (hstrings text List.mem_cons_self) hmore.1 hmore.2
    exact List.mem_cons_of_mem _ (Option.mem_toList.mpr hs)
  | wait seconds => exact hmore.elim
  | branch choices =>
    obtain rfl := List.mem_singleton.mp hw
    refine fits_branch hmore fun c hc => ?_
    have hclean : ∀ s ∈ [c.text, c.target], Clean s :=
      fun s hs => hstrings s (List.mem_flatMap.mpr ⟨c, hc, hs⟩)
    exact ⟨hclean _ List.mem_cons_self, hclean _ (List.mem_cons_of_mem _ List.mem_cons_self)⟩
  | jumpIf var cmp value target =>
    obtain ⟨c, hc, rfl⟩ := List.mem_map.mp hw
    have hclean := cmp.clean_spellings c hc
    simp only [Node.strings, List.forall_mem_cons] at hstrings
    obtain ⟨hvar, hvalue, htarget, _⟩ := hstrings
    refine fits_bracket (by decide) (by decide) ?_ ?_
    · exact argumentFits_cons (by decide) hvar (argumentFits_cons (by decide) hclean
        (argumentFits_cons (by decide) hvalue
          (argumentFits_cons (by decide) htarget argumentFits_nil)))
    · show (comparison? c >>= fun cmp => pure (Reading.node (.jumpIf var cmp value target))) = _
      rw [comparison?_ok.mpr hc]
      rfl
  | modify name op value =>
    obtain ⟨o, ho, rfl⟩ := List.mem_map.mp hw
    have hclean := op.clean_spellings o ho
    simp only [Node.strings, List.forall_mem_cons] at hstrings
    obtain ⟨hname, hvalue, _⟩ := hstrings
    refine fits_bracket (by decide) (by decide) ?_ ?_
    · exact argumentFits_cons (by decide) hname (argumentFits_cons (by decide) hclean
        (argumentFits_cons (by decide) hvalue argumentFits_nil))
    · show (operation? o >>= fun op => pure (Reading.node (.modify name op value))) = _
      rw [operation?_ok.mpr ho]
      rfl
  | call name args =>
    obtain rfl := List.mem_singleton.mp hw
    simp only [Node.strings, List.forall_mem_cons] at hstrings
    obtain ⟨hname, hargs⟩ := hstrings
    refine fits_bracket (by decide) (by decide) (argumentFits_cons (by decide) hname ?_) ?_
    · intro a ha
      obtain ⟨arg, harg, rfl⟩ := List.mem_map.mp ha
      exact argumentFits_cons (by decide) (hargs arg harg) argumentFits_nil _ List.mem_cons_self
    · show Except.ok (Reading.node (.call name
        (Arguments.all ⟨[], args.map fun a => ("arg", a)⟩ "arg"))) = _
      rw [all_arg]
  | showImage first second | set first second =>
    obtain rfl := List.mem_singleton.mp hw
    simp only [Node.strings, List.forall_mem_cons] at hstrings
    obtain ⟨hfirst, hsecond, _⟩ := hstrings
    exact fits_bracket (by decide) (by decide) (argumentFits_cons (by decide) hfirst
      (argumentFits_cons (by decide) hsecond argumentFits_nil)) rfl
  | playBgm only | playSe only | playMovie only | jump only | label only | clearLayer only
  | inclusion only =>
    obtain rfl := List.mem_singleton.mp hw
    have honly : Clean only := hstrings only List.mem_cons_self
    exact fits_bracket (by decide) (by decide)
      (argumentFits_cons (by decide) honly argumentFits_nil) rfl

/-! ## Lines -/

theorem toList_line (w : WrittenCommand) :
    w.line.toList =
      '[' :: (w.command.toList ++
        quotedArguments (w.arguments.map fun a => (a.1.toList, a.2.toList)) ++
          ']' :: w.trailing.toList) := by
  have hargs : (String.join (w.arguments.map fun a => " " ++ a.1 ++ "=\"" ++ a.2 ++ "\"")).toList =
      quotedArguments (w.arguments.map fun a => (a.1.toList, a.2.toList)) := by
    rw [String.toList_join]
    simp [quotedArguments, quotedArgument, List.flatMap_map]
  unfold WrittenCommand.line
  simp [hargs]

theorem Fits.quotable {w : WrittenCommand} {node : Node} (h : Fits w node) :
    ∀ a ∈ w.arguments.map fun a => (a.1.toList, a.2.toList), Quotable a := by
  intro a ha
  obtain ⟨b, hb, rfl⟩ := List.mem_map.mp ha
  exact ⟨(h.arguments b hb).1, (h.arguments b hb).2.1⟩

/-- A written command stands on one line. -/
theorem Fits.newline_free {w : WrittenCommand} {node : Node} (h : Fits w node) :
    '\n' ∉ w.line.toList := by
  have hplain : ∀ {cs : List Char}, (∀ c ∈ cs, Plain c) → '\n' ∉ cs :=
    fun hcs hmem => absurd (hcs _ hmem) (by decide)
  have hargs : '\n' ∉ quotedArguments (w.arguments.map fun a => (a.1.toList, a.2.toList)) := by
    intro hmem
    obtain ⟨a, ha, hmem⟩ := List.mem_flatMap.mp hmem
    obtain ⟨b, hb, rfl⟩ := List.mem_map.mp ha
    obtain ⟨hkey, hvalue⟩ := h.arguments b hb
    simp [quotedArgument, hplain hkey, hvalue.2] at hmem
  rw [toList_line]
  simp [hplain h.command, hargs, h.trailing]

theorem Fits.reads {w : WrittenCommand} {node : Node} (h : Fits w node) :
    Reads [Line.ofText w.line.toList] [node] := by
  have hread : readBrackets (w.command.toList ++
      quotedArguments (w.arguments.map fun a => (a.1.toList, a.2.toList))) (trim w.trailing.toList) =
        .ok (.node node) := by
    rw [readBrackets_quoted h.command_ne h.command h.quotable, ← h.read]
    simp [Function.comp_def]
  intro n
  rw [toList_line, ofText_quoted h.command h.quotable h.trailing_last]
  simp [items, hread]

/-- Lines that are commands by themselves, one below the other. -/
theorem reads_lines {nodes : List Node} {lines : List (List Char)}
    (h : List.Forall₂ (fun node line => line ≠ [] ∧ '\n' ∉ line ∧ Reads [Line.ofText line] [node])
      nodes lines) :
    Reads (linesOf (List.intercalate ['\n'] lines)) nodes := by
  induction h with
  | nil => exact fun n => rfl
  | @cons node line nodes lines hline hlines ih =>
    obtain ⟨hne, hnewline, hreads⟩ := hline
    cases hlines with
    | nil =>
      rw [List.intercalate_singleton, linesOf_rest hnewline hne]
      exact hreads
    | cons _ _ =>
      rw [List.intercalate_cons_cons, linesOf_append (.inr ⟨line, rfl⟩), linesOf_line hnewline]
      exact hreads.append ih

/-- Reading undoes writing: commands that are written one on a line, in any of their spellings and with
or without a line feed behind the last one, are read as they were. -/
theorem parse_of_written {gap : String} (hgap : ∀ c ∈ gap.toList, isBlank c = true ∧ c ≠ '\n')
    {nodes : List Node} (hnodes : ∀ node ∈ nodes, node.Writable) {ws : List WrittenCommand}
    (hws : List.Forall₂ (fun node w => w ∈ node.written gap) nodes ws) :
    parse ("\n".intercalate (ws.map WrittenCommand.line)) = .ok nodes ∧
      parse ("\n".intercalate (ws.map WrittenCommand.line) ++ "\n") = .ok nodes := by
  have hlines : List.Forall₂
      (fun node line => line ≠ [] ∧ '\n' ∉ line ∧ Reads [Line.ofText line] [node]) nodes
        (ws.map fun w => w.line.toList) := by
    induction hws with
    | nil => exact .nil
    | @cons node w nodes ws hw _ ih =>
      rw [List.forall_mem_cons] at hnodes
      have hfits := fits_of_written hgap hnodes.1 hw
      have hne : w.line.toList ≠ [] := by simp [toList_line]
      exact .cons ⟨hne, hfits.newline_free, hfits.reads⟩ (ih hnodes.2)
  have hreads := reads_lines hlines
  have htext : ("\n".intercalate (ws.map WrittenCommand.line)).toList =
      List.intercalate ['\n'] (ws.map fun w => w.line.toList) := by
    rw [String.toList_intercalate, List.map_map]
    rfl
  rw [parse_ok, parse_ok, String.toList_append, htext]
  exact ⟨hreads, hreads.newline⟩

/-! ## An example -/

/-- Commands whose texts hold what parts words, arguments, commands and lines outside of quotes. -/
def knotty : List Node :=
  [.say (some "") "[Ann]: a=b, c", .branch [⟨" to the ]left,", "a=b"⟩, ⟨"", "\r"⟩],
    .jumpIf "x y" .lessOrEqual "," "a=b", .modify "x y" .divide "\t2",
    .call "[" ["", "\u3000,="]]

/-- A way to write them. -/
def knottyWritten : List WrittenCommand :=
  [⟨"SAY", [("speaker", "")], " [Ann]: a=b, c"⟩,
    ⟨"BRANCH", [("choice", " to the ]left,"), ("label", "a=b"), ("choice", ""), ("label", "\r")], ""⟩,
    ⟨"JUMP_IF", [("var", "x y"), ("cmp", "<="), ("value", ","), ("label", "a=b")], ""⟩,
    ⟨"MODIFY", [("name", "x y"), ("op", "div"), ("value", "\t2")], ""⟩,
    ⟨"CALL", [("name", "["), ("arg", ""), ("arg", "\u3000,=")], ""⟩]

/-- Its lines. -/
def knottyLines : String :=
  "[SAY speaker=\"\"] [Ann]: a=b, c\n" ++
    "[BRANCH choice=\" to the ]left,\" label=\"a=b\" choice=\"\" label=\"\r\"]\n" ++
    "[JUMP_IF var=\"x y\" cmp=\"<=\" value=\",\" label=\"a=b\"]\n" ++
    "[MODIFY name=\"x y\" op=\"div\" value=\"\t2\"]\n" ++
    "[CALL name=\"[\" arg=\"\" arg=\"\u3000,=\"]"

theorem parse_of_written_knotty :
    (∀ c ∈ " ".toList, isBlank c = true ∧ c ≠ '\n') ∧ (∀ node ∈ knotty, node.Writable) ∧
      List.Forall₂ (fun node w => w ∈ node.written " ") knotty knottyWritten ∧
      "\n".intercalate (knottyWritten.map WrittenCommand.line) = knottyLines ∧
      parse knottyLines = .ok knotty ∧ parse (knottyLines ++ "\n") = .ok knotty := by
  have hgap : ∀ c ∈ " ".toList, isBlank c = true ∧ c ≠ '\n' := by
    intro c hc
    obtain rfl : c = ' ' := List.mem_singleton.mp hc
    decide
  have hnodes : ∀ node ∈ knotty, node.Writable := by decide
  have hwritten : List.Forall₂ (fun node w => w ∈ node.written " ") knotty knottyWritten :=
    .cons (by decide) (.cons (by decide) (.cons (by decide) (.cons (by decide)
      (.cons (by decide) .nil))))
  have hlines : "\n".intercalate (knottyWritten.map WrittenCommand.line) = knottyLines := by rfl
  have hparse := parse_of_written hgap hnodes hwritten
  rw [hlines] at hparse
  exact ⟨hgap, hnodes, hwritten, hlines, hparse⟩

end Script

end StoryPreview
