import StoryPreview.Script.Command
import StoryPreview.Text.Lines
/-!
Reading a script. A script is a list of lines; a line is skipped, is narration, or is a command. The
one command that looks further than its line is `SAY`, whose text may stand on the next line that is
not skipped. The reader goes through the lines once and remembers at most one such `SAY`.
-/
namespace StoryPreview.Script

open Text (trim)

/-- A line by itself. -/
inductive Line
  /-- Empty, a heading or a comment. -/
  | skipped
  /-- What stands between the brackets of a command, and the trimmed text behind them. -/
  | command (content trailing : List Char)
  /-- Starts with a bracket that is not closed. -/
  | unterminated
  | narration (text : List Char)
  deriving DecidableEq

/-- The text up to the first closing bracket outside double quotes, and the text behind it. -/
def splitBracket (inQuotes : Bool) : List Char → Option (List Char × List Char)
  | [] => none
  | c :: cs =>
    if c = '"' then (splitBracket (!inQuotes) cs).map fun r => (c :: r.1, r.2)
    else if c = ']' && !inQuotes then some ([], cs)
    else (splitBracket inQuotes cs).map fun r => (c :: r.1, r.2)

/-- Reads a line. -/
def Line.ofText (text : List Char) : Line :=
  match trim text with
  | [] => .skipped
  | '#' :: _ => .skipped
  | '<' :: '!' :: '-' :: '-' :: _ => .skipped
  | '[' :: body =>
    match splitBracket false body with
    | some (content, rest) => .command content (trim rest)
    | none => .unterminated
  | cs => .narration cs

/-- A `SAY` that still waits for its text, and the line it is on. -/
structure OpenSpeech where
  line : Nat
  speaker : Option String

/-- What a line gives: a command or a fault. -/
abbrev Item := Except LineFault Node

/-- The fault of a `SAY` for which no text came. -/
def OpenSpeech.fault (s : OpenSpeech) : Item := .error ⟨s.line, .missingText⟩

/-- The items of the lines from line `n` on, when `waiting` is open. -/
def items (waiting : Option OpenSpeech) (n : Nat) : List Line → List Item
  | [] => waiting.toList.map OpenSpeech.fault
  | .skipped :: ls => items waiting (n + 1) ls
  | .narration text :: ls =>
    .ok (.say (waiting.bind OpenSpeech.speaker) (String.ofList text)) :: items none (n + 1) ls
  | .unterminated :: ls =>
    waiting.toList.map OpenSpeech.fault ++ .error ⟨n, .unterminated⟩ :: items none (n + 1) ls
  | .command content trailing :: ls =>
    waiting.toList.map OpenSpeech.fault ++
      match readBrackets content trailing with
      | .ok (.node node) => .ok node :: items none (n + 1) ls
      | .ok (.speech speaker) => items (some ⟨n, speaker⟩) (n + 1) ls
      | .error fault => .error ⟨n, fault⟩ :: items none (n + 1) ls

/-- All values if there is no error, and all errors otherwise. -/
def gather : List (Except ε α) → Except (List ε) (List α)
  | [] => .ok []
  | .ok a :: rest =>
    match gather rest with
    | .ok as => .ok (a :: as)
    | .error es => .error es
  | .error e :: rest =>
    match gather rest with
    | .ok _ => .error [e]
    | .error es => .error (e :: es)

/-- What reading a script gives: its commands, or every fault in it. -/
abbrev Parsed := Except (List LineFault) (List Node)

/-- Reads a script. -/
def parse (source : String) : Parsed :=
  gather (items none 1 ((Text.lines source.toList).map Line.ofText))

end StoryPreview.Script
