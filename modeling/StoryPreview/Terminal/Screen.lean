import StoryPreview.Display.View
import StoryPreview.Message.State
import StoryPreview.Number.Decimal
import StoryPreview.Terminal.Invocation
import StoryPreview.Text.Blank
/-!
The terminal of a player: what is printed, and what a line of input means.
-/
namespace StoryPreview

/-- What a player asks for. -/
inductive PlayCommand
  /-- A choice, counted from one. -/
  | choose (number : Nat)
  | back
  | restart
  | toggleLive
  | quit
  deriving DecidableEq

/-- A natural number below `2 ^ 64`, which may have a plus sign. -/
def Number.nat? (cs : List Char) : Option Nat :=
  let digits := match cs with
    | '+' :: r => r
    | r => r
  (Number.digits? digits).filter (· < 18446744073709551616)

/-- Reads a line of input. -/
def PlayCommand.ofLine? (line : String) : Option PlayCommand :=
  let cs := Text.trim line.toList
  if cs = ['q'] then some .quit
  else if cs = ['b'] then some .back
  else if cs = ['s'] then some .restart
  else if cs = ['l'] then some .toggleLive
  else match Number.nat? cs with
    | some n => if 0 < n then some (.choose n) else none
    | none => none

namespace Screen

/-- What stands above everything else. -/
def header (script : String) : String := textLines [
  "=== utsushi preview: " ++ script ++ " ===",
  "",
  "Controls:",
  "  1-9: select choice",
  "  b:   back",
  "  s:   restart",
  "  l:   toggle live update",
  "  q:   quit",
  ""]

def invalidInput : String := "Invalid input. Enter a number, 'b', 's', 'l', or 'q'.\n"

def farewell : String := "Goodbye!\n"

def errorLine (message : String) : String := "[error] " ++ message ++ "\n"

/-- The sequence that clears a terminal. -/
def clear : String := "\x1b[2J\x1b[H"

def delta (d : Delta) : String :=
  (if d.redraw then clear else "") ++ textLines d.lines ++
    String.join (d.errors.map errorLine)

/-- The choices and the question for one of them, or that the story is over. -/
def choices (s : State) : String :=
  if s.choices ≠ [] then
    textLines ("--- Choice ---" ::
      s.choices.map (fun c => toString (c.index + 1) ++ ". " ++ c.text) ++ [""]) ++ "Select (1-9): "
  else if s.atEnd then textLines ["== THE END ==", ""]
  else ""

def debugInfo (s : State) : String :=
  textLines (["[debug]", "live_update=" ++ toString s.liveUpdate] ++
    (if s.events = [] then []
      else ["events=" ++ (Json.array (s.events.map FunctionEvent.toJson)).compact]) ++ [""])

end Screen

end StoryPreview
