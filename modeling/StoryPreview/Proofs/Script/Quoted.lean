import StoryPreview.Script.Parse
/-!
Commands with quoted arguments. Between double quotes blanks do not part words and brackets do not end a
command, so arguments in quotes are read as they are written, whatever is in them but a double quote
(`ofText_quoted`, `readBrackets_quoted`).
-/
namespace StoryPreview

namespace Text

theorem trimStart_eq_self {cs : List Char} (h : ∀ c, cs.head? = some c → isBlank c = false) :
    trimStart cs = cs := by
  cases cs with
  | nil => rfl
  | cons c cs =>
    unfold trimStart
    rw [List.dropWhile_cons_of_neg (by simp [h c rfl])]

/-- A text that neither starts nor ends with a blank is trimmed already. -/
theorem trim_eq_self {cs : List Char} (hfirst : ∀ c, cs.head? = some c → isBlank c = false)
    (hlast : ∀ c, cs.getLast? = some c → isBlank c = false) : trim cs = cs := by
  have hend : trimStart cs.reverse = cs.reverse :=
    trimStart_eq_self fun c hc => hlast c (by rwa [List.head?_reverse] at hc)
  unfold trim
  rw [trimStart_eq_self hfirst]
  unfold trimEnd
  unfold trimStart at hend
  rw [hend, List.reverse_reverse]

end Text

namespace Script

open Text (isBlank trim trim_eq_self)

/-! ## Words -/

/-- A character that parts or ends nothing outside of quotes. -/
def Plain (c : Char) : Prop := c ≠ '"' ∧ c ≠ ']' ∧ c ≠ '=' ∧ isBlank c = false

instance : DecidablePred Plain := fun _ => inferInstanceAs (Decidable (_ ∧ _))

/-- The check of a text goes through its characters, not through all there are. -/
theorem plain_of_all {cs : List Char} (h : (cs.all fun c => decide (Plain c)) = true) :
    ∀ c ∈ cs, Plain c :=
  fun c hc => of_decide_eq_true (List.all_eq_true.mp h c hc)

theorem splitBracket_append {inQuotes : Bool} {a : List Char}
    (h : ∀ c ∈ a, c ≠ '"' ∧ (inQuotes = false → c ≠ ']')) (b : List Char) :
    splitBracket inQuotes (a ++ b) = (splitBracket inQuotes b).map fun r => (a ++ r.1, r.2) := by
  induction a with
  | nil => simp
  | cons c a ih =>
    obtain ⟨hquote, hbracket⟩ := h c List.mem_cons_self
    have hstays : ¬ (decide (c = ']') && !inQuotes) = true := by
      cases inQuotes with
      | true => simp
      | false => simp [hbracket rfl]
    rw [List.cons_append, splitBracket, if_neg hquote, if_neg hstays,
      ih fun d hd => h d (List.mem_cons_of_mem _ hd), Option.map_map]
    rfl

theorem wordsFrom_append {inQuotes : Bool} {a : List Char}
    (h : ∀ c ∈ a, c ≠ '"' ∧ (inQuotes = false → isBlank c = false)) (current b : List Char) :
    wordsFrom inQuotes current (a ++ b) = wordsFrom inQuotes (a.reverse ++ current) b := by
  induction a generalizing current with
  | nil => rfl
  | cons c a ih =>
    obtain ⟨hquote, hblank⟩ := h c List.mem_cons_self
    have hstays : ¬ (isBlank c && !inQuotes) = true := by
      cases inQuotes with
      | true => simp
      | false => simp [hblank rfl]
    rw [List.cons_append, wordsFrom, if_neg hquote, if_neg hstays,
      ih (fun d hd => h d (List.mem_cons_of_mem _ hd)), List.reverse_cons, List.append_assoc]
    rfl

theorem splitBracket_quote (inQuotes : Bool) (cs : List Char) :
    splitBracket inQuotes ('"' :: cs) =
      (splitBracket (!inQuotes) cs).map fun r => ('"' :: r.1, r.2) := by
  rw [splitBracket, if_pos rfl]

theorem wordsFrom_quote (inQuotes : Bool) (current cs : List Char) :
    wordsFrom inQuotes current ('"' :: cs) = wordsFrom (!inQuotes) ('"' :: current) cs := by
  rw [wordsFrom, if_pos rfl]

theorem wordsFrom_blank {c : Char} (hc : isBlank c = true) (hquote : c ≠ '"')
    {current : List Char} (hcurrent : current ≠ []) (cs : List Char) :
    wordsFrom false current (c :: cs) = current.reverse :: wordsFrom false [] cs := by
  rw [wordsFrom, if_neg hquote, if_pos (by simp [hc]), if_neg hcurrent]

/-! ## Arguments -/

/-- An argument with its value in quotes. -/
def quotedArgument (key value : List Char) : List Char := key ++ '=' :: '"' :: (value ++ ['"'])

/-- Arguments with their values in quotes, each behind a space. -/
def quotedArguments (args : List (List Char × List Char)) : List Char :=
  args.flatMap fun a => ' ' :: quotedArgument a.1 a.2

/-- An argument that can be quoted. -/
def Quotable (a : List Char × List Char) : Prop := (∀ c ∈ a.1, Plain c) ∧ '"' ∉ a.2

theorem quotedArguments_cons (key value : List Char) (args : List (List Char × List Char)) :
    quotedArguments ((key, value) :: args) =
      ' ' :: (quotedArgument key value ++ quotedArguments args) := by
  simp [quotedArguments]

variable {name key value : List Char} {args : List (List Char × List Char)}

theorem splitBracket_argument {lead : List Char} (hlead : ∀ c ∈ lead, c ≠ '"' ∧ c ≠ ']')
    (hquote : '"' ∉ value) (cs : List Char) :
    splitBracket false (lead ++ '"' :: (value ++ '"' :: cs)) =
      (splitBracket false cs).map fun r => (lead ++ '"' :: (value ++ '"' :: r.1), r.2) := by
  have houtside : ∀ c ∈ lead, c ≠ '"' ∧ (false = false → c ≠ ']') :=
    fun c hc => ⟨(hlead c hc).1, fun _ => (hlead c hc).2⟩
  have hinside : ∀ c ∈ value, c ≠ '"' ∧ (true = false → c ≠ ']') :=
    fun c hc => ⟨fun heq => hquote (heq ▸ hc), fun h => nomatch h⟩
  rw [splitBracket_append houtside, splitBracket_quote, Bool.not_false, splitBracket_append hinside,
    splitBracket_quote, Bool.not_true]
  simp only [Option.map_map]
  rfl

/-- The bracket behind quoted arguments is the one that ends the command. -/
theorem splitBracket_quotedArguments (hargs : ∀ a ∈ args, Quotable a) (rest : List Char) :
    splitBracket false (quotedArguments args ++ ']' :: rest) =
      some (quotedArguments args, rest) := by
  induction args with
  | nil => rfl
  | cons a args ih =>
    obtain ⟨key, value⟩ := a
    obtain ⟨hkey, hquote⟩ := hargs _ List.mem_cons_self
    have hrest := ih fun a ha => hargs a (List.mem_cons_of_mem _ ha)
    have hlead : ∀ c ∈ ' ' :: (key ++ ['=']), c ≠ '"' ∧ c ≠ ']' := by
      intro c hc
      simp only [List.mem_append, List.mem_cons, List.not_mem_nil, or_false] at hc
      rcases hc with rfl | hc | rfl
      · decide
      · exact ⟨(hkey c hc).1, (hkey c hc).2.1⟩
      · decide
    have htext : quotedArguments ((key, value) :: args) ++ ']' :: rest =
        (' ' :: (key ++ ['='])) ++
          '"' :: (value ++ '"' :: (quotedArguments args ++ ']' :: rest)) := by
      simp [quotedArguments_cons, quotedArgument]
    rw [htext, splitBracket_argument hlead hquote, hrest, quotedArguments_cons]
    simp [quotedArgument]

theorem splitBracket_quoted (hname : ∀ c ∈ name, Plain c) (hargs : ∀ a ∈ args, Quotable a)
    (rest : List Char) :
    splitBracket false (name ++ quotedArguments args ++ ']' :: rest) =
      some (name ++ quotedArguments args, rest) := by
  have hplain : ∀ c ∈ name, c ≠ '"' ∧ (false = false → c ≠ ']') :=
    fun c hc => ⟨(hname c hc).1, fun _ => (hname c hc).2.1⟩
  rw [List.append_assoc, splitBracket_append hplain, splitBracket_quotedArguments hargs]
  rfl

/-- A quoted argument goes on to the next blank outside of its quotes. -/
theorem wordsFrom_quotedArgument (ha : Quotable (key, value)) (cs : List Char) :
    wordsFrom false [] (quotedArgument key value ++ cs) =
      wordsFrom false (quotedArgument key value).reverse cs := by
  obtain ⟨hkey, hquote⟩ := ha
  have hlead : ∀ c ∈ key ++ ['='], c ≠ '"' ∧ (false = false → isBlank c = false) := by
    intro c hc
    rcases List.mem_append.mp hc with hc | hc
    · exact ⟨(hkey c hc).1, fun _ => (hkey c hc).2.2.2⟩
    · rw [List.mem_singleton.mp hc]
      decide
  have hinside : ∀ c ∈ value, c ≠ '"' ∧ (true = false → isBlank c = false) :=
    fun c hc => ⟨fun heq => hquote (heq ▸ hc), fun h => nomatch h⟩
  have htext : quotedArgument key value ++ cs =
      (key ++ ['=']) ++ '"' :: (value ++ '"' :: cs) := by
    simp [quotedArgument]
  rw [htext, wordsFrom_append hlead, wordsFrom_quote, Bool.not_false, wordsFrom_append hinside,
    wordsFrom_quote, Bool.not_true]
  simp [quotedArgument]

/-- Quoted arguments are words by themselves, behind the word that is being read. -/
theorem wordsFrom_quotedArguments {current : List Char} (hcurrent : current ≠ [])
    (hargs : ∀ a ∈ args, Quotable a) :
    wordsFrom false current (quotedArguments args) =
      current.reverse :: args.map fun a => quotedArgument a.1 a.2 := by
  induction args generalizing current with
  | nil => exact if_neg hcurrent
  | cons a args ih =>
    obtain ⟨key, value⟩ := a
    have hword : (quotedArgument key value).reverse ≠ [] := by simp [quotedArgument]
    rw [quotedArguments_cons, wordsFrom_blank (by decide) (by decide) hcurrent,
      wordsFrom_quotedArgument (hargs _ List.mem_cons_self),
      ih hword fun a ha => hargs a (List.mem_cons_of_mem _ ha), List.reverse_reverse, List.map_cons]

theorem words_quoted (hne : name ≠ []) (hname : ∀ c ∈ name, Plain c)
    (hargs : ∀ a ∈ args, Quotable a) :
    words (name ++ quotedArguments args) =
      name :: args.map fun a => quotedArgument a.1 a.2 := by
  have hfirst : ∀ c ∈ name, c ≠ '"' ∧ (false = false → isBlank c = false) :=
    fun c hc => ⟨(hname c hc).1, fun _ => (hname c hc).2.2.2⟩
  unfold words
  rw [wordsFrom_append hfirst, List.append_nil,
    wordsFrom_quotedArguments (by simpa using hne) hargs, List.reverse_reverse]

theorem unquote_quoted (cs : List Char) : unquote ('"' :: (cs ++ ['"'])) = cs := by
  simp [unquote]

/-- Of a quoted argument nothing is lost: it ends with no comma, its first `=` is the one behind the
key, and what is in the quotes is no longer trimmed. -/
theorem add_quotedArgument (hkey : ∀ c ∈ key, Plain c) (rest : Arguments) :
    Arguments.add (quotedArgument key value) rest =
      { rest with named := (String.ofList key, String.ofList value) :: rest.named } := by
  have hcommas : ((quotedArgument key value).reverse.dropWhile (· = ',')).reverse =
      quotedArgument key value := by
    simp [quotedArgument]
  have hequals : ∀ c ∈ key, decide (c ≠ '=') = true := fun c hc => decide_eq_true (hkey c hc).2.2.1
  have htake : (quotedArgument key value).takeWhile (· ≠ '=') = key := by
    unfold quotedArgument
    rw [List.takeWhile_append_of_pos hequals]
    simp
  have hdrop : (quotedArgument key value).dropWhile (· ≠ '=') = '=' :: '"' :: (value ++ ['"']) := by
    unfold quotedArgument
    rw [List.dropWhile_append_of_pos hequals]
    simp
  have htrim : trim key = key := by
    refine trim_eq_self (fun c hc => ?_) (fun c hc => ?_)
    · exact (hkey c (List.mem_of_head? hc)).2.2.2
    · exact (hkey c (List.mem_of_getLast? hc)).2.2.2
  have hvalue : trim ('"' :: (value ++ ['"'])) = '"' :: (value ++ ['"']) := by
    refine trim_eq_self (fun c hc => ?_) (fun c hc => ?_)
    · cases hc
      decide
    · rw [← List.cons_append, List.getLast?_concat] at hc
      cases hc
      decide
  unfold Arguments.add
  rw [hcommas]
  dsimp only
  rw [hdrop, htake]
  dsimp only
  rw [htrim, hvalue, unquote_quoted]

theorem ofWords_quoted (hargs : ∀ a ∈ args, Quotable a) :
    Arguments.ofWords (args.map fun a => quotedArgument a.1 a.2) =
      ⟨[], args.map fun a => (String.ofList a.1, String.ofList a.2)⟩ := by
  induction args with
  | nil => rfl
  | cons a args ih =>
    have hrest := ih fun a ha => hargs a (List.mem_cons_of_mem _ ha)
    unfold Arguments.ofWords at hrest ⊢
    rw [List.map_cons, List.foldr_cons, hrest, add_quotedArgument (hargs a List.mem_cons_self).1,
      List.map_cons]

/-! ## Commands -/

theorem ofText_bracket {cs body : List Char} (h : trim cs = '[' :: body) :
    Line.ofText cs = match splitBracket false body with
      | some (content, rest) => .command content (trim rest)
      | none => .unterminated := by
  unfold Line.ofText
  rw [h]
  rfl

/-- A command line with quoted arguments, and with a text behind the bracket that ends with no blank. -/
theorem ofText_quoted (hname : ∀ c ∈ name, Plain c) (hargs : ∀ a ∈ args, Quotable a)
    {rest : List Char} (hrest : ∀ c, rest.getLast? = some c → isBlank c = false) :
    Line.ofText ('[' :: (name ++ quotedArguments args ++ ']' :: rest)) =
      .command (name ++ quotedArguments args) (trim rest) := by
  have htrim : trim ('[' :: (name ++ quotedArguments args ++ ']' :: rest)) =
      '[' :: (name ++ quotedArguments args ++ ']' :: rest) := by
    refine trim_eq_self (fun c hc => ?_) (fun c hc => ?_)
    · cases hc
      decide
    · rw [← List.cons_append, List.getLast?_append, List.getLast?_cons, Option.some_or] at hc
      cases hlast : rest.getLast? with
      | none =>
        rw [hlast] at hc
        cases hc
        decide
      | some d =>
        rw [hlast] at hc
        cases hc
        exact hrest d hlast
  rw [ofText_bracket htrim, splitBracket_quoted hname hargs]

/-- Quoted arguments are read as they are written. -/
theorem readBrackets_quoted (hne : name ≠ []) (hname : ∀ c ∈ name, Plain c)
    (hargs : ∀ a ∈ args, Quotable a) (trailing : List Char) :
    readBrackets (name ++ quotedArguments args) trailing =
      readCommand (String.ofList name)
        ⟨[], args.map fun a => (String.ofList a.1, String.ofList a.2)⟩ trailing := by
  unfold readBrackets
  rw [words_quoted hne hname hargs]
  dsimp only
  rw [ofWords_quoted hargs]

end Script

end StoryPreview
