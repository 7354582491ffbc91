/-!
What can be wrong with a line of a script.
-/
namespace StoryPreview

/-- Why a line of a script is not a command. -/
inductive Fault
  /-- The bracket of a command is not closed. -/
  | unterminated
  | emptyCommand
  | unknownCommand (name : String)
  | missingParameter (key command : String)
  /-- A `SAY` without text on its line or below it. -/
  | missingText
  | invalidDuration (text : String)
  | missingDuration
  | missingChoices
  | surplusLabels (labels choices : Nat)
  | invalidComparison (text : String)
  | invalidOperation (text : String)
  deriving DecidableEq

def Fault.message : Fault → String
  | .unterminated => "Unterminated command, missing ']'"
  | .emptyCommand => "Empty command"
  | .unknownCommand name => "Unknown command '" ++ name ++ "'"
  | .missingParameter key command =>
    "Missing required parameter '" ++ key ++ "' for command '" ++ command ++ "'"
  | .missingText => "SAY command missing text"
  | .invalidDuration text => "Invalid duration '" ++ text ++ "'"
  | .missingDuration => "WAIT command missing duration"
  | .missingChoices => "BRANCH command missing choices"
  | .surplusLabels labels choices =>
    "BRANCH has " ++ toString labels ++ " labels but only " ++ toString choices ++ " choices"
  | .invalidComparison text => "Invalid comparison operator '" ++ text ++ "'"
  | .invalidOperation text => "Invalid operation '" ++ text ++ "'"

/-- A fault and the line it is on, counted from one. -/
structure LineFault where
  line : Nat
  fault : Fault
  deriving DecidableEq

end StoryPreview
