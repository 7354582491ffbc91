import StoryPreview.Proofs.Script.Insertion
import StoryPreview.Proofs.Script.Origin
import StoryPreview.Proofs.Script.Quoted
/-!
The texts of a script. A text stands on a line of its own or behind the bracket of a `SAY`, and `lineText`
says which text a line holds without regard to the lines around it. In a script that reads without a
fault each of them is told once, in order (`texts_of_parse`): a `SAY` without a text of its own takes the
next one, which is then not told again.
-/
namespace StoryPreview

/-- The text that a command tells. -/
def Node.text? : Node → Option String
  | .say _ text => some text
  | _ => none

namespace Script

open Text (isBlank trim trimStart)

/-! ## Lines by themselves -/

/-- Whether a command is closed at a place: a bracket with an even number of double quotes before it, of
which some may stand before the text. -/
def closesAt (quotes : Nat) (body : List Char) (n : Nat) : Bool :=
  body[n]? = some ']' ∧ (quotes + (body.take n).count '"') % 2 = 0

/-- The first place where a command is closed. -/
def closing (quotes : Nat) (body : List Char) : Option Nat :=
  (List.range body.length).find? (closesAt quotes body)

/-- What stands before the first blank that is not at the beginning. -/
def firstWord (cs : List Char) : List Char := (trimStart cs).takeWhile fun c => !isBlank c

/-- The text behind the closing bracket of a `SAY`, when `body` stands behind the opening one. -/
def textBehind (body : List Char) : Option String :=
  (closing 0 body).bind fun n =>
    let text := trim (body.drop (n + 1))
    if firstWord (body.take n) = "SAY".toList ∧ text ≠ [] then some (String.ofList text) else none

/-- The text that a line holds. -/
def lineText (line : List Char) : Option String :=
  let text := trim line
  if text = [] ∨ "#".toList <+: text ∨ "<!--".toList <+: text then none
  else if "[".toList <+: text then textBehind text.tail
  else some (String.ofList text)

/-! ## Brackets -/

theorem closesAt_zero (quotes : Nat) (c : Char) (cs : List Char) :
    closesAt quotes (c :: cs) 0 = decide (c = ']' ∧ quotes % 2 = 0) :=
  decide_eq_decide.mpr (by simp)

theorem closesAt_succ (quotes : Nat) (c : Char) (cs : List Char) (n : Nat) :
    closesAt quotes (c :: cs) (n + 1) = closesAt (quotes + if c = '"' then 1 else 0) cs n := by
  unfold closesAt
  rw [List.getElem?_cons_succ, List.take_succ_cons, List.count_cons, Nat.add_right_comm,
    Nat.add_assoc]
  simp only [beq_iff_eq]

theorem closing_cons (quotes : Nat) (c : Char) (cs : List Char) :
    closing quotes (c :: cs) =
      if c = ']' ∧ quotes % 2 = 0 then some 0
      else (closing (quotes + if c = '"' then 1 else 0) cs).map (· + 1) := by
  unfold closing
  rw [List.length_cons, List.range_succ_eq_map, List.find?_cons, List.find?_map]
  have hrest : closesAt quotes (c :: cs) ∘ Nat.succ =
      closesAt (quotes + if c = '"' then 1 else 0) cs :=
    funext fun n => closesAt_succ quotes c cs n
  rw [closesAt_zero, hrest]
  by_cases hc : c = ']' ∧ quotes % 2 = 0
  · simp [hc]
  · simp [hc]

/-- The reader of a line parts a command from what stands behind it where it is closed. -/
theorem splitBracket_eq (quotes : Nat) (body : List Char) :
    splitBracket (decide (quotes % 2 = 1)) body =
      (closing quotes body).map fun n => (body.take n, body.drop (n + 1)) := by
  induction body generalizing quotes with
  | nil => rfl
  | cons c cs ih =>
    have hshift (q : Nat) : (splitBracket (decide (q % 2 = 1)) cs).map (fun r => (c :: r.1, r.2)) =
        ((closing q cs).map (· + 1)).map fun n => ((c :: cs).take n, (c :: cs).drop (n + 1)) := by
      rw [ih, Option.map_map, Option.map_map]
      rfl
    rw [splitBracket, closing_cons]
    by_cases hquote : c = '"'
    · have hodd : (!decide (quotes % 2 = 1)) = decide ((quotes + 1) % 2 = 1) := by
        rw [← decide_not]
        exact decide_eq_decide.mpr (by omega)
      rw [if_pos hquote, if_neg (by simp [hquote]), if_pos hquote, hodd, hshift]
    · rw [if_neg hquote, if_neg hquote, Nat.add_zero]
      by_cases hcloses : c = ']' ∧ quotes % 2 = 0
      · rw [if_pos (by simp [hcloses]), if_pos hcloses]
        rfl
      · rw [if_neg ?_, if_neg hcloses, hshift]
        simpa using hcloses

/-! ## Words -/

/-- A word that is being read goes on with what has been read. -/
theorem exists_wordsFrom (inQuotes : Bool) {current : List Char} (h : current ≠ [])
    (cs : List Char) :
    ∃ word rest, wordsFrom inQuotes current cs = word :: rest ∧ current.reverse <+: word := by
  induction cs generalizing inQuotes current with
  | nil => exact ⟨current.reverse, [], if_neg h, List.prefix_refl _⟩
  | cons c cs ih =>
    have hlonger (q : Bool) : ∃ word rest, wordsFrom q (c :: current) cs = word :: rest ∧
        current.reverse <+: word := by
      obtain ⟨word, rest, heq, hbegins⟩ := ih q (List.cons_ne_nil c current)
      rw [List.reverse_cons] at hbegins
      exact ⟨word, rest, heq, (List.prefix_append _ _).trans hbegins⟩
    rw [wordsFrom]
    split
    · exact hlonger _
    · split
      · exact ⟨current.reverse, _, rfl, List.prefix_refl _⟩
      · exact hlonger _

/-- Words do not begin with a blank. -/
theorem words_trimStart (cs : List Char) : words (trimStart cs) = words cs := by
  induction cs with
  | nil => rfl
  | cons c cs ih =>
    cases hc : isBlank c with
    | false =>
      unfold trimStart
      rw [List.dropWhile_cons_of_neg (by simp [hc])]
    | true =>
      have hquote : c ≠ '"' := by
        rintro rfl
        revert hc
        decide
      have hdrop : trimStart (c :: cs) = trimStart cs := List.dropWhile_cons_of_pos hc
      have hskip : words (c :: cs) = words cs := by
        unfold words
        rw [wordsFrom, if_neg hquote, if_pos (by simp [hc]), if_pos rfl]
      rw [hdrop, hskip, ih]

/-- What stands before the first blank, and the rest. -/
theorem firstWord_append (cs : List Char) :
    ∃ rest, trimStart cs = firstWord cs ++ rest ∧ (∀ c ∈ firstWord cs, isBlank c = false) ∧
      ∀ c, rest.head? = some c → isBlank c = true := by
  refine ⟨(trimStart cs).dropWhile fun c => !isBlank c, ?_, fun c hc => ?_, fun c hc => ?_⟩
  · exact List.takeWhile_append_dropWhile.symm
  · simpa using List.all_eq_true.mp List.all_takeWhile c hc
  · have hnot := List.head?_dropWhile_not (fun c => !isBlank c) (trimStart cs)
    rw [hc] at hnot
    simpa using hnot

/-- Without double quotes it is the first word. -/
theorem words_of_firstWord {cs : List Char} (hquote : '"' ∉ firstWord cs)
    (hne : firstWord cs ≠ []) : ∃ rest, words cs = firstWord cs :: rest := by
  obtain ⟨rest, htext, hblank, hhead⟩ := firstWord_append cs
  have hword : ∀ c ∈ firstWord cs, c ≠ '"' ∧ (false = false → isBlank c = false) :=
    fun c hc => ⟨fun heq => hquote (heq ▸ hc), fun _ => hblank c hc⟩
  have hcurrent : (firstWord cs).reverse ≠ [] := by simpa using hne
  rw [← words_trimStart, htext, words, wordsFrom_append hword, List.append_nil]
  cases rest with
  | nil =>
    rw [wordsFrom, if_neg hcurrent, List.reverse_reverse]
    exact ⟨[], rfl⟩
  | cons d rest =>
    have hd : isBlank d = true := hhead d rfl
    have hquoted : d ≠ '"' := by
      rintro rfl
      revert hd
      decide
    rw [wordsFrom_blank hd hquoted hcurrent, List.reverse_reverse]
    exact ⟨_, rfl⟩

/-- A first word without double quotes ends at the first blank. -/
theorem firstWord_of_words {cs word : List Char} {rest : List (List Char)}
    (h : words cs = word :: rest) (hquote : '"' ∉ word) : firstWord cs = word := by
  obtain ⟨behind, htext, hblank, hhead⟩ := firstWord_append cs
  by_cases hinside : '"' ∈ firstWord cs
  · -- A double quote before the first blank stands in the first word.
    obtain ⟨a, b, hsplit, ha⟩ := List.eq_append_cons_of_mem hinside
    have hbefore : ∀ c ∈ a, c ≠ '"' ∧ (false = false → isBlank c = false) := by
      intro c hc
      refine ⟨fun heq => ha (heq ▸ hc), fun _ => hblank c ?_⟩
      rw [hsplit]
      exact List.mem_append_left _ hc
    rw [← words_trimStart, htext, hsplit, words, List.append_assoc, wordsFrom_append hbefore,
      List.cons_append, wordsFrom_quote] at h
    obtain ⟨word', rest', heq, hbegins⟩ :=
      exists_wordsFrom (!false) (List.cons_ne_nil '"' (a.reverse ++ [])) (b ++ behind)
    rw [heq, List.cons.injEq] at h
    rw [h.1] at hbegins
    exact absurd (hbegins.subset (by simp)) hquote
  · by_cases hnil : firstWord cs = []
    · -- Then there is no word at all.
      rw [hnil, List.nil_append] at htext
      cases behind with
      | nil =>
        rw [← words_trimStart, htext] at h
        cases h
      | cons d behind =>
        have hfirst := List.head?_dropWhile_not isBlank cs
        have hdrop : cs.dropWhile isBlank = d :: behind := htext
        rw [hdrop] at hfirst
        exact absurd ((hhead d rfl).symm.trans hfirst) (by decide)
    · obtain ⟨rest', heq⟩ := words_of_firstWord hinside hnil
      rw [heq, List.cons.injEq] at h
      exact h.1

/-! ## Commands -/

/-- A `SAY` tells what stands behind its bracket, or it waits. -/
theorem readCommand_say (args : Arguments) (trailing : List Char) :
    readCommand "SAY" args trailing =
      .ok (if trailing = [] then .speech (args.first "speaker")
        else .node (.say (args.first "speaker") (String.ofList trailing))) := by
  show (if trailing = [] then _ else _) = _
  split <;> rfl

/-- No other command tells a text. -/
theorem text?_of_readCommand {command : String} {args : Arguments} {trailing : List Char}
    {reading : Reading} (hne : command ≠ "SAY")
    (h : readCommand command args trailing = .ok reading) :
    ∃ node, reading = .node node ∧ node.text? = none := by
  unfold readCommand at h
  dsimp only at h
  split at h
  case h_1 => exact absurd rfl hne
  case h_10 =>
    simp only [bind_ok, pure_ok] at h
    obtain ⟨_, _, _, _, _, _, _, _, _, _, rfl⟩ := h
    exact ⟨_, rfl, rfl⟩
  case h_11 =>
    simp only [bind_ok, pure_ok] at h
    obtain ⟨_, _, _, _, rfl⟩ := h
    exact ⟨_, rfl, rfl⟩
  case h_12 =>
    simp only [bind_ok, pure_ok] at h
    obtain ⟨_, _, _, _, _, _, _, _, rfl⟩ := h
    exact ⟨_, rfl, rfl⟩
  case h_16 => cases h
  all_goals
    simp only [bind_ok, pure_ok] at h
    obtain ⟨_, _, rfl⟩ := h
    exact ⟨_, rfl, rfl⟩

theorem exists_readBrackets_say {content : List Char} (h : firstWord content = "SAY".toList)
    (trailing : List Char) :
    ∃ speaker, readBrackets content trailing =
      .ok (if trailing = [] then .speech speaker
        else .node (.say speaker (String.ofList trailing))) := by
  obtain ⟨rest, hwords⟩ : ∃ rest, words content = firstWord content :: rest :=
    words_of_firstWord (by rw [h]; decide) (by rw [h]; decide)
  rw [h] at hwords
  unfold readBrackets
  rw [hwords]
  exact ⟨_, readCommand_say _ _⟩

theorem text?_of_readBrackets {content trailing : List Char} {reading : Reading}
    (hne : firstWord content ≠ "SAY".toList) (h : readBrackets content trailing = .ok reading) :
    ∃ node, reading = .node node ∧ node.text? = none := by
  unfold readBrackets at h
  split at h
  · cases h
  · rename_i name rest hwords
    refine text?_of_readCommand (fun hname => hne ?_) h
    have hsay : name = "SAY".toList := by rw [← hname, String.toList_ofList]
    exact (firstWord_of_words hwords (by rw [hsay]; decide)).trans hsay

/-! ## Lines -/

/-- The text that a line holds, once it is read. -/
def Line.text? : Line → Option String
  | .narration text => some (String.ofList text)
  | .command content trailing =>
    if firstWord content = "SAY".toList ∧ trailing ≠ [] then some (String.ofList trailing) else none
  | _ => none

theorem text?_ofText (line : List Char) : (Line.ofText line).text? = lineText line := by
  unfold Line.ofText lineText
  dsimp only
  split
  · rename_i h
    rw [h]
    rfl
  · rename_i h
    rw [h]
    rfl
  · rename_i h
    rw [h]
    rfl
  · rename_i body h
    rw [h, if_neg (by simp), if_pos (by simp), List.tail_cons, textBehind]
    have hsplit : splitBracket false body = _ := splitBracket_eq 0 body
    rw [hsplit]
    cases closing 0 body <;> rfl
  · rename_i hnil hheading hcomment hbracket
    rw [if_neg ?_, if_neg ?_]
    · rfl
    · rintro ⟨rest, hrest⟩
      exact hbracket rest hrest.symm
    · rintro (h | ⟨rest, hrest⟩ | ⟨rest, hrest⟩)
      · exact hnil h
      · exact hheading rest hrest.symm
      · exact hcomment rest hrest.symm

/-! ## Scripts -/

theorem cons_ok_eq_map {ε α : Type} {a : α} {xs : List (Except ε α)} {as : List α} :
    .ok a :: xs = as.map .ok ↔ ∃ rest, as = a :: rest ∧ xs = rest.map .ok := by
  constructor
  · intro h
    obtain ⟨b, rest, rfl, hb, hrest⟩ := List.map_eq_cons_iff.mp h.symm
    cases hb
    exact ⟨rest, rfl, hrest.symm⟩
  · rintro ⟨rest, rfl, rfl⟩
    rfl

/-- Lines without a fault tell the texts that they hold, whether or not a `SAY` waits before them. -/
theorem texts_of_items {waiting : Option OpenSpeech} {n : Nat} {ls : List Line} {nodes : List Node}
    (h : items waiting n ls = nodes.map .ok) :
    nodes.filterMap Node.text? = ls.filterMap Line.text? := by
  induction ls generalizing waiting n nodes with
  | nil =>
    cases waiting with
    | none =>
      obtain rfl : nodes = [] := List.map_eq_nil_iff.mp h.symm
      rfl
    | some s => cases nodes <;> cases h
  | cons l ls ih =>
    have hno (e : LineFault) : .error e ∉ items waiting n (l :: ls) := by
      rw [h]
      simp
    cases l with
    | skipped => exact ih h
    | narration text =>
      obtain ⟨rest, rfl, hrest⟩ := cons_ok_eq_map.mp h
      exact congrArg (String.ofList text :: ·) (ih hrest)
    | unterminated =>
      exact absurd (List.mem_append_right _ List.mem_cons_self) (hno ⟨n, .unterminated⟩)
    | command content trailing =>
      cases waiting with
      | some s => exact absurd (List.mem_append_left _ List.mem_cons_self) (hno ⟨s.line, .missingText⟩)
      | none =>
        simp only [items, Option.toList_none, List.map_nil, List.nil_append] at h hno
        by_cases hsay : firstWord content = "SAY".toList
        · obtain ⟨speaker, hread⟩ := exists_readBrackets_say hsay trailing
          by_cases htrailing : trailing = []
          · -- The text is on a line below, and told by that line.
            have htext : (Line.command content trailing).text? = none := if_neg (by simp [htrailing])
            rw [hread, if_pos htrailing] at h
            rw [List.filterMap_cons_none htext]
            exact ih h
          · have htext : (Line.command content trailing).text? = some (String.ofList trailing) :=
              if_pos ⟨hsay, htrailing⟩
            rw [hread, if_neg htrailing] at h
            obtain ⟨rest, rfl, hrest⟩ := cons_ok_eq_map.mp h
            rw [List.filterMap_cons_some htext]
            exact congrArg (String.ofList trailing :: ·) (ih hrest)
        · have htext : (Line.command content trailing).text? = none := if_neg fun h => hsay h.1
          rw [List.filterMap_cons_none htext]
          cases hread : readBrackets content trailing with
          | error fault =>
            rw [hread] at hno
            exact absurd List.mem_cons_self (hno ⟨n, fault⟩)
          | ok reading =>
            obtain ⟨node, rfl, hnode⟩ := text?_of_readBrackets hsay hread
            rw [hread] at h
            obtain ⟨rest, rfl, hrest⟩ := cons_ok_eq_map.mp h
            rw [List.filterMap_cons_none hnode]
            exact ih hrest

/-- No text of a script is lost, and none is told twice. What the commands of a script tell, one after
another, is what its lines hold, one after another: a line of narration its text, and a `SAY` the text
behind its bracket, if there is one. -/
theorem texts_of_parse {source : String} {nodes : List Node} (h : parse source = .ok nodes) :
    nodes.filterMap Node.text? = (Text.lines source.toList).filterMap lineText := by
  have htext : Line.text? ∘ Line.ofText = lineText := funext text?_ofText
  rw [texts_of_items (parse_ok.mp h 1), linesOf, List.filterMap_map, htext]

/-- A script in which texts stand in all places, and other things in places like them. -/
def crowded : String :=
  "# A pier\nAnn waits.\r\n[SAY speaker=Ann]\n<!-- aside -->\n\n  Hello? \n" ++
    "[ SAY speaker=\"B]\" ] Here. [I am]\n[LABEL name=x] not told\n[SAY\tspeaker=]\nBye!\n<!- said"

theorem texts_of_parse_crowded :
    parse crowded = .ok [.say none "Ann waits.", .say (some "Ann") "Hello?",
      .say (some "B]") "Here. [I am]", .label "x", .say (some "") "Bye!", .say none "<!- said"] ∧
      (Text.lines crowded.toList).filterMap lineText =
        ["Ann waits.", "Hello?", "Here. [I am]", "Bye!", "<!- said"] := by
  have h : parse crowded = .ok [.say none "Ann waits.", .say (some "Ann") "Hello?",
      .say (some "B]") "Here. [I am]", .label "x", .say (some "") "Bye!",
      .say none "<!- said"] := by decide +kernel
  exact ⟨h, (texts_of_parse h).symm⟩

end Script

end StoryPreview
