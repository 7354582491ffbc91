import StoryPreview.Story.Player
/-!
What the reader of a preview sees: transcript, choices, errors, events and flags.
-/
namespace StoryPreview

/-- The kind of a recorded error. -/
inductive ErrorKind
  /-- The script does not compile. -/
  | compile
  /-- An included script could not be loaded. -/
  | includeLoad
  /-- A choice that the story does not offer. -/
  | invalidChoice
  /-- A message with an action that nobody knows. -/
  | unknownAction
  deriving DecidableEq

/-- Whether the error comes from compiling a script rather than from playing it. -/
def ErrorKind.isCompile : ErrorKind → Bool
  | .compile | .includeLoad => true
  | _ => false

/-- A recorded error, with its line in the edited script if it is known. -/
structure ErrorInfo where
  kind : ErrorKind
  message : String
  line : Option Nat
  deriving DecidableEq

namespace ErrorInfo

def invalidChoice (index available : Nat) : ErrorInfo where
  kind := .invalidChoice
  message :=
    if available = 0 then
      "Choice " ++ toString index ++ " is not available: the story offers no choices here"
    else
      "Choice " ++ toString index ++ " is not available (0-" ++ toString (available - 1) ++ ")"
  line := none

def unknownAction (kind : String) : ErrorInfo :=
  ⟨.unknownAction, "Unknown action '" ++ kind ++ "'", none⟩

/-- A compile error as it is recorded. Only a fault in the edited script itself has a line. -/
def ofCompileError (e : CompileError) : ErrorInfo :=
  match e with
  | .faulty none fault => ⟨.compile, e.message, some fault.line⟩
  | .load .. => ⟨.includeLoad, e.message, none⟩
  | _ => ⟨.compile, e.message, none⟩

end ErrorInfo

/-- All that a display needs to show a session. -/
structure State where
  transcript : List TranscriptEntry
  choices : List ChoiceView
  errors : List ErrorInfo
  events : List FunctionEvent
  liveUpdate : Bool
  canContinue : Bool
  atEnd : Bool
  deriving DecidableEq

namespace State

/-- Nothing shown yet. -/
def empty (liveUpdate : Bool) : State := ⟨[], [], [], [], liveUpdate, false, false⟩

/-- The texts of the transcript. -/
def transcriptTexts (s : State) : List String :=
  s.transcript.filterMap fun
    | .text _ text => some text
    | .tag .. => none

/-- The texts of the choices. -/
def choiceTexts (s : State) : List String := s.choices.map ChoiceView.text

/-- The state after a passage that brought the player where it is. -/
def absorb (s : State) (passage : Passage) (p : Player) : State :=
  { s with
    transcript := s.transcript ++ passage.entries
    events := s.events ++ passage.events
    choices := p.choices
    canContinue := p.canContinue
    atEnd := p.isEnded }

end State

end StoryPreview
