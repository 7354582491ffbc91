import StoryPreview.Number.Decimal
import StoryPreview.Script.Fault
import StoryPreview.Script.Node
import StoryPreview.Text.Blank
/-!
The text inside the brackets of a command: its words, its arguments, and the command they make.
-/
namespace StoryPreview.Script

open Text (isBlank trim)

/-! ## Words and arguments -/

/-- The words of a text: blanks part them, except between double quotes, which stay in the word.
`current` is the word being read, last character first. -/
def wordsFrom (inQuotes : Bool) (current : List Char) : List Char → List (List Char)
  | [] => if current = [] then [] else [current.reverse]
  | c :: cs =>
    if c = '"' then wordsFrom (!inQuotes) (c :: current) cs
    else if isBlank c && !inQuotes then
      if current = [] then wordsFrom inQuotes [] cs
      else current.reverse :: wordsFrom inQuotes [] cs
    else wordsFrom inQuotes (c :: current) cs

def words (cs : List Char) : List (List Char) := wordsFrom false [] cs

/-- The text without one pair of double quotes around it. -/
def unquote : List Char → List Char
  | '"' :: cs =>
    match cs.reverse with
    | '"' :: r => r.reverse
    | _ => '"' :: cs
  | cs => cs

/-- The arguments of a command. -/
structure Arguments where
  positional : List String
  named : List (String × String)

namespace Arguments

/-- Adds the argument a word holds in front: `key=value`, or else a positional one. Commas at the
end of a word only part it from the next. -/
def add (word : List Char) (args : Arguments) : Arguments :=
  let word := (word.reverse.dropWhile (· = ',')).reverse
  let key := word.takeWhile (· ≠ '=')
  match word.dropWhile (· ≠ '=') with
  | _ :: value =>
    let entry := (String.ofList (trim key), String.ofList (unquote (trim value)))
    { args with named := entry :: args.named }
  | [] =>
    if word = [] then args
    else { args with positional := String.ofList (unquote word) :: args.positional }

def ofWords (ws : List (List Char)) : Arguments := ws.foldr add ⟨[], []⟩

/-- All values given for a key, in order. -/
def all (args : Arguments) (key : String) : List String :=
  (args.named.filter (fun a => a.1 = key)).map Prod.snd

/-- The first value given for a key. -/
def first (args : Arguments) (key : String) : Option String := (args.all key).head?

/-- The first value given for a key that the command cannot do without. -/
def require (args : Arguments) (command key : String) : Except Fault String :=
  match args.first key with
  | some value => .ok value
  | none => .error (.missingParameter key command)

end Arguments

/-! ## Commands -/

def comparison? (text : String) : Except Fault Comparison :=
  match text with
  | "eq" | "==" => .ok .equal
  | "ne" | "!=" => .ok .notEqual
  | "lt" | "<" => .ok .less
  | "le" | "<=" => .ok .lessOrEqual
  | "gt" | ">" => .ok .greater
  | "ge" | ">=" => .ok .greaterOrEqual
  | _ => .error (.invalidComparison text)

def operation? (text : String) : Except Fault Operation :=
  match text with
  | "add" | "+" => .ok .add
  | "sub" | "-" => .ok .subtract
  | "mul" | "*" => .ok .multiply
  | "div" | "/" => .ok .divide
  | _ => .error (.invalidOperation text)

/-- A number of seconds; `whole` is what the message quotes. -/
def seconds? (digits : List Char) (whole : String) : Except Fault Number.Binary :=
  match Number.Binary.ofText? .single digits with
  | some x => .ok x
  | none => .error (.invalidDuration whole)

/-- The pause of a `WAIT`: a first positional argument that ends in `s`, or else `seconds`, or else
`duration`. -/
def duration? (args : Arguments) : Except Fault Number.Binary :=
  let inline := args.positional.head?.bind fun text =>
    match text.toList.reverse with
    | 's' :: r => some (r.reverse, text)
    | _ => none
  match inline with
  | some (digits, text) => seconds? digits text
  | none =>
    match (args.first "seconds").or (args.first "duration") with
    | some text => seconds? text.toList text
    | none => .error .missingDuration

/-- Pairs the choices with the labels; a choice beyond the last label is its own label. -/
def pairChoices : List String → List String → List Choice
  | [], _ => []
  | text :: texts, [] => ⟨text, text⟩ :: pairChoices texts []
  | text :: texts, label :: labels => ⟨text, label⟩ :: pairChoices texts labels

def choices? (args : Arguments) : Except Fault (List Choice) :=
  let labels := args.all "label"
  let choices := pairChoices (args.all "choice") labels
  if choices = [] then .error .missingChoices
  else if choices.length < labels.length then
    .error (.surplusLabels labels.length choices.length)
  else .ok choices

/-- What a command line says. -/
inductive Reading
  | node (n : Node)
  /-- A `SAY` whose text stands on a line below. -/
  | speech (speaker : Option String)
  deriving DecidableEq

/-- The command of a given name. -/
def readCommand (command : String) (args : Arguments) (trailing : List Char) :
    Except Fault Reading := do
  let require := args.require command
  match command with
  | "SAY" =>
    let speaker := args.first "speaker"
    if trailing = [] then return .speech speaker
    else return .node (.say speaker (String.ofList trailing))
  | "PLAY_BGM" => return .node (.playBgm (← require "name"))
  | "PLAY_SE" => return .node (.playSe (← require "name"))
  | "SHOW_IMAGE" =>
    let name ← require "name"
    return .node (.showImage ((args.first "layer").getD "default") name)
  | "PLAY_MOVIE" => return .node (.playMovie (← require "name"))
  | "WAIT" => return .node (.wait (← duration? args))
  | "BRANCH" => return .node (.branch (← choices? args))
  | "LABEL" => return .node (.label (← require "name"))
  | "JUMP" => return .node (.jump (← require "label"))
  | "JUMP_IF" =>
    let var ← require "var"
    let cmp ← comparison? (← require "cmp")
    let value ← require "value"
    let label ← require "label"
    return .node (.jumpIf var cmp value label)
  | "SET" =>
    let name ← require "name"
    let value ← require "value"
    return .node (.set name value)
  | "MODIFY" =>
    let name ← require "name"
    let op ← operation? (← require "op")
    let value ← require "value"
    return .node (.modify name op value)
  | "CLEAR_LAYER" => return .node (.clearLayer (← require "layer"))
  | "CALL" => return .node (.call (← require "name") (args.all "arg"))
  | "INCLUDE" => return .node (.inclusion (← require "name"))
  | _ => throw (.unknownCommand command)

/-- Reads the text between the brackets, and the trimmed text behind them. -/
def readBrackets (content trailing : List Char) : Except Fault Reading :=
  match words content with
  | [] => .error .emptyCommand
  | name :: rest => readCommand (String.ofList name) (Arguments.ofWords rest) trailing

end StoryPreview.Script
