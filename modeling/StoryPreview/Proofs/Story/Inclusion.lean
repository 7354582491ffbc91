import StoryPreview.Proofs.Script.Expansion
import StoryPreview.Proofs.Script.Insertion
import StoryPreview.Proofs.Script.Quoted
import StoryPreview.Proofs.Story.Link
/-!
Inclusion is inclusion of text. A script that compiles compiles to the same story when the text of an
included script stands in the place of the line that includes it (`compile_in_place`). The converse does
not hold: written out, a `SAY` at the end of the included script finds its text in the script around it.
-/
namespace StoryPreview

namespace Includes

theorem load_ofTexts {texts : List (String × String)} {name text : String}
    (h : texts.lookup name = some text) :
    (ofTexts texts).load name = .ok (Script.parse text) := by
  have hlookup : (texts.map fun t => (t.1, (Except.ok (Script.parse t.2) :
      Except LoadError Script.Parsed))).lookup name = some (.ok (Script.parse text)) := by
    induction texts with
    | nil => cases h
    | cons t texts ih =>
      rw [List.map_cons, List.lookup_cons]
      rw [List.lookup_cons] at h
      cases hname : name == t.1 with
      | true =>
        rw [hname] at h
        cases h
        rfl
      | false =>
        rw [hname] at h
        exact ih h
  unfold load ofTexts
  rw [hlookup]

end Includes

namespace Script

/-- The line that includes a script. -/
def inclusionLine (name : String) : String := "[INCLUDE name=\"" ++ name ++ "\"]"

theorem plain_include : ∀ c ∈ "INCLUDE".toList, Plain c := plain_of_all (by decide)

theorem plain_name : ∀ c ∈ "name".toList, Plain c := plain_of_all (by decide)

theorem quotable_name {name : String} (hquote : '"' ∉ name.toList) :
    ∀ a ∈ [("name".toList, name.toList)], Quotable a := by
  intro a ha
  rw [List.mem_singleton.mp ha]
  exact ⟨plain_name, hquote⟩

theorem ofText_inclusionLine {name : String} (hquote : '"' ∉ name.toList) :
    Line.ofText (inclusionLine name).toList =
      .command ("INCLUDE".toList ++ quotedArguments [("name".toList, name.toList)]) [] := by
  have hchars : (inclusionLine name).toList =
      '[' :: ("INCLUDE".toList ++ quotedArguments [("name".toList, name.toList)] ++ [']']) := by
    unfold inclusionLine
    simp [quotedArguments, quotedArgument]
  rw [hchars]
  exact ofText_quoted plain_include (quotable_name hquote) (by simp)

theorem readBrackets_inclusion {name : String} (hquote : '"' ∉ name.toList) :
    readBrackets ("INCLUDE".toList ++ quotedArguments [("name".toList, name.toList)]) [] =
      .ok (.node (.inclusion name)) := by
  rw [readBrackets_quoted (by decide) plain_include (quotable_name hquote), List.map_singleton,
    String.ofList_toList, String.ofList_toList, String.ofList_toList]
  rfl

end Script

namespace Story

/-- A script may have the text of an included script in the place of the line that includes it, if the
script before that line ends with a line feed. -/
theorem compile_in_place {texts : List (String × String)} {before name text after : String}
    {s : Story} (hbefore : before = "" ∨ ∃ lines, before = lines ++ "\n")
    (htext : texts.lookup name = some text) (hquote : '"' ∉ name.toList)
    (hline : '\n' ∉ name.toList)
    (h : Story.compile (.ofTexts texts)
      (before ++ "[INCLUDE name=\"" ++ name ++ "\"]\n" ++ after) = .ok s) :
    Story.compile (.ofTexts texts) (before ++ text ++ "\n" ++ after) = .ok s := by
  obtain ⟨nodes, expanded, hparse, hexpand, hlink⟩ := compile_ok h
  have hchars : (before ++ "[INCLUDE name=\"" ++ name ++ "\"]\n" ++ after).toList =
      before.toList ++ (((Script.inclusionLine name).toList ++ ['\n']) ++ after.toList) := by
    unfold Script.inclusionLine
    simp
  have hends := Text.endsLine_toList hbefore
  have hnewline : '\n' ∉ (Script.inclusionLine name).toList := by
    unfold Script.inclusionLine
    simp [hline]
  -- The script is what stands before the line, the line, and what stands behind it.
  have hreads := Script.parse_ok.mp hparse
  rw [hchars, Script.linesOf_append hends, Script.linesOf_append (.inr ⟨_, rfl⟩),
    Script.linesOf_line hnewline, Script.ofText_inclusionLine hquote, List.singleton_append] at hreads
  obtain ⟨a, b, ha, hb, rfl⟩ := hreads.around (Script.readBrackets_inclusion hquote)
  -- The line expands to the included script, which is read and expanded by itself.
  obtain ⟨ea, er, hea, her, rfl⟩ := Includes.expand_append_ok.mp hexpand
  rw [← List.singleton_append, Includes.expand_append_ok] at her
  obtain ⟨em, eb, hem, heb, rfl⟩ := her
  obtain ⟨inner, hinner, hexpanded⟩ := Includes.expand_inclusion_ok
    (Includes.load_ofTexts htext) (Script.parse_ne_error_nil text) hem
  -- With its text in the place of the line there are the same commands.
  have hplaced : (before ++ text ++ "\n" ++ after).toList =
      before.toList ++ ((text.toList ++ ['\n']) ++ after.toList) := by
    simp
  have hnew : Script.parse (before ++ text ++ "\n" ++ after) = .ok (a ++ (inner ++ b)) := by
    rw [Script.parse_ok, hplaced, Script.linesOf_append hends, Script.linesOf_append (.inr ⟨_, rfl⟩)]
    exact ha.append ((Script.parse_ok.mp hinner).newline.append hb)
  have hnewExpand : (Includes.ofTexts texts).expand (a ++ (inner ++ b)) = .ok (ea ++ (em ++ eb)) :=
    Includes.expand_append_ok.mpr
      ⟨ea, em ++ eb, hea, Includes.expand_append_ok.mpr ⟨em, eb, hexpanded, heb, rfl⟩, rfl⟩
  unfold Story.compile
  rw [hnew]
  dsimp only
  rw [hnewExpand]
  exact hlink

end Story

/-! ## An example -/

/-- A part that includes an aside on its last line, which nothing ends. -/
def partTexts : List (String × String) :=
  [("the part", "[LABEL name=part]\nA part.\n[INCLUDE name=aside]"), ("aside", "An aside.\n")]

/-- The part comes after a first line; behind it stand the aside once more and a jump back. -/
def Story.inParts : Story where
  nodes := #[.say none "First.", .label "part", .say none "A part.", .say none "An aside.",
    .say none "An aside.", .jump "part"]
  labels := .ofList [("part", 1)]

/-- The part can be included, and it can be written out; the asides are still included. -/
theorem Story.compile_in_place_part :
    partTexts.lookup "the part" = some "[LABEL name=part]\nA part.\n[INCLUDE name=aside]" ∧
      Story.compile (.ofTexts partTexts)
        ("First.\n" ++ "[INCLUDE name=\"" ++ "the part" ++ "\"]\n" ++
          "[INCLUDE name=aside]\n[JUMP label=part]\n") = .ok .inParts ∧
      Story.compile (.ofTexts partTexts)
        ("First.\n" ++ "[LABEL name=part]\nA part.\n[INCLUDE name=aside]" ++ "\n" ++
          "[INCLUDE name=aside]\n[JUMP label=part]\n") = .ok .inParts := by
  have hlookup : partTexts.lookup "the part" =
      some "[LABEL name=part]\nA part.\n[INCLUDE name=aside]" := by rfl
  have hcompile : Story.compile (.ofTexts partTexts)
      ("First.\n" ++ "[INCLUDE name=\"" ++ "the part" ++ "\"]\n" ++
        "[INCLUDE name=aside]\n[JUMP label=part]\n") = .ok .inParts := by rfl
  exact ⟨hlookup, hcompile, Story.compile_in_place (.inr ⟨"First.", rfl⟩) hlookup (by decide)
    (by decide) hcompile⟩

end StoryPreview
