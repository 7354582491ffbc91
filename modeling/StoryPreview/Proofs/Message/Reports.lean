import StoryPreview.Message.Position
import StoryPreview.Proofs.Script.Faults
import StoryPreview.Proofs.Story.Link
import StoryPreview.Session.State
/-!
Where reported errors point. Only a fault of the edited script itself is reported with a line, and that
is the line of the script on which the bracket stands that cannot be read (`exists_bracket_of_mem_faults`).
What inclusions bring, however deep (`mem_errors_itemsFrom`), and what linking brings has no line, so no
line of another file is taken for one of the edited script (`lines_of_compile`).
-/
namespace StoryPreview

/-! ## Errors of inclusions -/

namespace Includes

/-- An error that is found when commands are expanded in the scripts that are open: by the inclusions
among the commands, or deeper, by those of an included script. -/
inductive Finds (inc : Includes) : List String → List Node → CompileError → Prop
  | cycle {opened : List String} {nodes : List Node} {name : String}
      (hnode : .inclusion name ∈ nodes) (hname : name ∈ opened) : Finds inc opened nodes (.cycle name)
  | load {opened : List String} {nodes : List Node} {name : String} {reason : LoadError}
      (hnode : .inclusion name ∈ nodes) (hname : name ∉ opened)
      (hload : inc.load name = .error reason) : Finds inc opened nodes (.load name reason)
  | faulty {opened : List String} {nodes : List Node} {name : String} {faults : List LineFault}
      {fault : LineFault} (hnode : .inclusion name ∈ nodes) (hname : name ∉ opened)
      (hload : inc.load name = .ok (.error faults)) (hfault : fault ∈ faults) :
      Finds inc opened nodes (.faulty (some name) fault)
  | deeper {opened : List String} {nodes inner : List Node} {name : String} {e : CompileError}
      (hnode : .inclusion name ∈ nodes) (hname : name ∉ opened)
      (hload : inc.load name = .ok (.ok inner)) (h : Finds inc (name :: opened) inner e) :
      Finds inc opened nodes e

/-- What is found stays found when the script that finds it is one command of many. -/
theorem mem_itemsFrom_of_visit {inc : Includes} {opened : List String} {nodes : List Node}
    {node : Node} {item : Item} (hnode : node ∈ nodes)
    (h : item ∈ inc.visit opened inc.itemsFrom node) : item ∈ inc.itemsFrom opened nodes := by
  rw [itemsFrom_eq]
  exact List.mem_flatMap.mpr ⟨node, hnode, h⟩

theorem Finds.mem_itemsFrom {inc : Includes} {opened : List String} {nodes : List Node}
    {e : CompileError} (h : inc.Finds opened nodes e) : .error e ∈ inc.itemsFrom opened nodes := by
  induction h with
  | cycle hnode hname => exact mem_itemsFrom_of_visit hnode (by simp [visit, hname])
  | load hnode hname hload => exact mem_itemsFrom_of_visit hnode (by simp [visit, hname, hload])
  | faulty hnode hname hload hfault =>
    exact mem_itemsFrom_of_visit hnode (by simp [visit, hname, hload, hfault])
  | deeper hnode hname hload _ ih =>
    exact mem_itemsFrom_of_visit hnode (by simpa [visit, hname, hload] using ih)

theorem finds_of_mem_itemsFrom {inc : Includes} {opened : List String} {nodes : List Node}
    {e : CompileError} (h : .error e ∈ inc.itemsFrom opened nodes) : inc.Finds opened nodes e := by
  -- Opening a script leaves fewer names to open.
  induction hn : inc.unopened opened using Nat.strongRecOn generalizing opened nodes with
  | ind n ih =>
    rw [itemsFrom_eq] at h
    obtain ⟨node, hnode, hitem⟩ := List.mem_flatMap.mp h
    cases node with
    | inclusion name =>
      unfold visit at hitem
      dsimp only at hitem
      split at hitem
      · rename_i hname
        cases List.mem_singleton.mp hitem
        exact .cycle hnode hname
      · rename_i hname
        split at hitem
        · rename_i reason hload
          cases List.mem_singleton.mp hitem
          exact .load hnode hname hload
        · rename_i faults hload
          obtain ⟨fault, hfault, heq⟩ := List.mem_map.mp hitem
          cases heq
          exact .faulty hnode hname hload hfault
        · rename_i inner hload
          exact .deeper hnode hname hload (ih _ (hn ▸ unopened_lt hload hname) hitem rfl)
    | _ => cases List.mem_singleton.mp hitem

/-- The errors of an expansion are those that its inclusions bring, however deep. -/
theorem mem_errors_itemsFrom {inc : Includes} {opened : List String} {nodes : List Node}
    {e : CompileError} : e ∈ Script.errors (inc.itemsFrom opened nodes) ↔ inc.Finds opened nodes e := by
  have hmem : e ∈ Script.errors (inc.itemsFrom opened nodes) ↔
      .error e ∈ inc.itemsFrom opened nodes := by
    unfold Script.errors
    rw [List.mem_filterMap]
    constructor
    · rintro ⟨item, hitem, he⟩
      cases item with
      | ok node => cases he
      | error e' =>
        cases he
        exact hitem
    · exact fun h => ⟨.error e, h, rfl⟩
  exact hmem.trans ⟨finds_of_mem_itemsFrom, Finds.mem_itemsFrom⟩

theorem expand_error {inc : Includes} {nodes : List Node} {errors : List CompileError}
    (h : inc.expand nodes = .error errors) (e : CompileError) :
    e ∈ errors ↔ inc.Finds [] nodes e := by
  unfold expand at h
  rw [items_eq_itemsFrom, Script.gather_eq] at h
  split at h
  · cases h
  · cases h
    exact mem_errors_itemsFrom

/-- No error of an inclusion has a line. -/
theorem Finds.line_eq_none {inc : Includes} {opened : List String} {nodes : List Node}
    {e : CompileError} (h : inc.Finds opened nodes e) : (ErrorInfo.ofCompileError e).line = none := by
  induction h with
  | deeper _ _ _ _ ih => exact ih
  | _ => rfl

end Includes

/-! ## Errors of links -/

/-- No error of a link has a line. -/
theorem Story.line_of_link_error {nodes : List Node} {errors : List CompileError}
    (h : Story.link nodes = .error errors) {e : CompileError} (he : e ∈ errors) :
    (ErrorInfo.ofCompileError e).line = none := by
  have hduplicates (found : List (String × Nat)) (seen : List String)
      (he : e ∈ Link.duplicates seen found) : (ErrorInfo.ofCompileError e).line = none := by
    induction found generalizing seen with
    | nil => cases he
    | cons label rest ih =>
      rw [Link.duplicates] at he
      split at he
      · rcases List.mem_cons.mp he with rfl | he
        · rfl
        · exact ih seen he
      · exact ih (_ :: seen) he
  unfold Story.link at h
  dsimp only at h
  split at h
  · cases h
  · cases h
    rcases List.mem_append.mp he with he | he
    · exact hduplicates _ _ he
    · obtain ⟨name, _, rfl⟩ := List.mem_map.mp he
      rfl

/-! ## Faults of the script -/

/-- A fault of a script is on a line of it that starts with a bracket, blanks apart. -/
theorem Script.exists_bracket_of_mem_faults {cs : List Char} {f : LineFault}
    (h : f ∈ faults none 1 (linesOf cs)) :
    1 ≤ f.line ∧ ∃ text, (Text.lines cs)[f.line - 1]? = some text ∧ "[".toList <+: Text.trim text := by
  obtain ⟨k, l, hl, hbracket, hline⟩ :=
    (exists_line_of_mem_faults h).resolve_left List.not_mem_nil
  obtain ⟨text, htext, rfl⟩ : ∃ text, (Text.lines cs)[k]? = some text ∧ Line.ofText text = l := by
    rwa [linesOf, List.getElem?_map, Option.map_eq_some_iff] at hl
  have hplace : f.line - 1 = k := by omega
  exact ⟨by omega, text, by rwa [hplace], (bracket?_ofText text).mp hbracket⟩

/-- A line of the document can be gone to. -/
theorem JumpTarget.resolve_line {document : String} {l : Nat} (h : 1 ≤ l)
    {text : List Char} (htext : (Text.lines document.toList)[l - 1]? = some text) :
    JumpTarget.resolve document (.line l) = .ok ⟨l, 1⟩ := by
  obtain ⟨hlt, _⟩ := List.getElem?_eq_some_iff.mp htext
  have hinside : ¬ ((l = 0 || (Text.lines document.toList).length < l) = true) := by
    simp only [Bool.or_eq_true, decide_eq_true_eq]
    omega
  unfold resolve
  exact if_neg hinside

/-! ## Compiling -/

/-- An error that is reported with a line is on that line of the script: a jump to it goes to its first
column, and the line starts with a bracket, blanks apart. So it is with every fault of the script itself.
If the script reads, the errors are those that its inclusions bring, however deep, or those of the link,
and none of them has a line. -/
theorem Story.lines_of_compile {inc : Includes} {source : String} {errors : List CompileError}
    (h : Story.compile inc source = .error errors) :
    (∀ info ∈ errors.map ErrorInfo.ofCompileError, ∀ l, info.line = some l →
      JumpTarget.resolve source (.line l) = .ok ⟨l, 1⟩ ∧
        ∃ text, (Text.lines source.toList)[l - 1]? = some text ∧ "[".toList <+: Text.trim text) ∧
      (∀ faults, Script.parse source = .error faults →
        (errors.map ErrorInfo.ofCompileError).map ErrorInfo.line =
          faults.map fun f => some f.line) ∧
      ∀ nodes, Script.parse source = .ok nodes →
        (∀ info ∈ errors.map ErrorInfo.ofCompileError, info.line = none) ∧
          ((∀ e, e ∈ errors ↔ inc.Finds [] nodes e) ∨
            ∃ expanded, inc.expand nodes = .ok expanded ∧ Story.link expanded = .error errors) := by
  unfold Story.compile at h
  cases hparse : Script.parse source with
  | error faults =>
    rw [hparse] at h
    cases h
    obtain ⟨hfaults, _⟩ := Script.parse_error.mp hparse
    refine ⟨?_, ?_, nofun⟩
    · intro info hinfo l hl
      rw [List.map_map] at hinfo
      obtain ⟨f, hf, rfl⟩ := List.mem_map.mp hinfo
      obtain rfl : f.line = l := Option.some.inj hl
      rw [← hfaults] at hf
      obtain ⟨hle, text, htext, hbracket⟩ := Script.exists_bracket_of_mem_faults hf
      exact ⟨JumpTarget.resolve_line hle htext, text, htext, hbracket⟩
    · rintro _ ⟨⟩
      rw [List.map_map, List.map_map]
      rfl
  | ok nodes =>
    rw [hparse] at h
    dsimp only at h
    have hrest : (∀ e ∈ errors, (ErrorInfo.ofCompileError e).line = none) ∧
        ((∀ e, e ∈ errors ↔ inc.Finds [] nodes e) ∨
          ∃ expanded, inc.expand nodes = .ok expanded ∧ Story.link expanded = .error errors) := by
      split at h
      · rename_i hexpand
        cases h
        have hfinds := Includes.expand_error hexpand
        exact ⟨fun e he => ((hfinds e).mp he).line_eq_none, .inl hfinds⟩
      · rename_i expanded hexpand
        exact ⟨fun e he => Story.line_of_link_error h he, .inr ⟨expanded, hexpand, h⟩⟩
    have hnone : ∀ info ∈ errors.map ErrorInfo.ofCompileError, info.line = none :=
      List.forall_mem_map.mpr hrest.1
    refine ⟨fun info hinfo l hl => ?_, nofun, ?_⟩
    · rw [hnone info hinfo] at hl
      cases hl
    · rintro _ ⟨⟩
      exact ⟨hnone, hrest.2⟩

/-- A script with faults on its third, fourth and last line, and lines that end in both ways. -/
def Script.jetty : String :=
  "\r\nA jetty.\r\n\t[NOPE]\r\n[SAY speaker=Ann]\n# boats\n  [JUMP label=\"pier"

/-- A script that includes another one, which includes a broken one, one that is missing, and itself. -/
def Script.cellar : String := "Stairs.\n[INCLUDE name=cellar]\n[JUMP label=attic]\n"

/-- The script that is included, and the broken one. -/
def Includes.below : Includes :=
  .ofTexts [("cellar", "[INCLUDE name=vault]\n\n[INCLUDE name=well]\n[INCLUDE name=cellar]"),
    ("vault", "Dust.\n[NOPE]\n")]

/-- The faults of the one script are on its lines. What is wrong below the other one has no line, though
the script has a second line and a bracket on it. -/
theorem Story.lines_of_compile_jetty :
    (Story.compile .below Script.jetty = .error
        [.faulty none ⟨3, .unknownCommand "NOPE"⟩, .faulty none ⟨4, .missingText⟩,
          .faulty none ⟨6, .unterminated⟩] ∧
      JumpTarget.resolve Script.jetty (.line 6) = .ok ⟨6, 1⟩ ∧
      ∃ text, (Text.lines Script.jetty.toList)[6 - 1]? = some text ∧
        "[".toList <+: Text.trim text) ∧
    Story.compile .below Script.cellar = .error
        [.faulty (some "vault") ⟨2, .unknownCommand "NOPE"⟩, .load "well" (.unknownName "well"),
          .cycle "cellar"] ∧
      (ErrorInfo.ofCompileError (.faulty (some "vault") ⟨2, .unknownCommand "NOPE"⟩)).line = none := by
  have hjetty : Story.compile .below Script.jetty = .error
      [.faulty none ⟨3, .unknownCommand "NOPE"⟩, .faulty none ⟨4, .missingText⟩,
        .faulty none ⟨6, .unterminated⟩] := by rfl
  have hcellar : Story.compile .below Script.cellar = .error
      [.faulty (some "vault") ⟨2, .unknownCommand "NOPE"⟩, .load "well" (.unknownName "well"),
        .cycle "cellar"] := by rfl
  have hparse : Script.parse Script.cellar =
      .ok [.say none "Stairs.", .inclusion "cellar", .jump "attic"] := by decide +kernel
  obtain ⟨hlines, _⟩ := lines_of_compile hjetty
  obtain ⟨_, _, hreads⟩ := lines_of_compile hcellar
  refine ⟨⟨hjetty, hlines (.ofCompileError (.faulty none ⟨6, .unterminated⟩)) ?_ 6 rfl⟩, hcellar,
    (hreads _ hparse).1 _ ?_⟩
  · exact List.mem_map_of_mem (by decide)
  · exact List.mem_map_of_mem (by decide)

end StoryPreview
