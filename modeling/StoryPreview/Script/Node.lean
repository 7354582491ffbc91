import StoryPreview.Number.Binary
/-!
The commands of a script.
-/
namespace StoryPreview

/-- How a condition compares a variable with a literal. -/
inductive Comparison
  | equal
  | notEqual
  | less
  | lessOrEqual
  | greater
  | greaterOrEqual
  deriving DecidableEq

/-- What a modification does to a variable. -/
inductive Operation
  | add
  | subtract
  | multiply
  | divide
  deriving DecidableEq

/-- An option of a branch: what the reader sees, and the label it leads to. -/
structure Choice where
  text : String
  target : String
  deriving DecidableEq

/-- One command of a script. -/
inductive Node
  /-- Dialogue, or narration when there is no speaker. -/
  | say (speaker : Option String) (text : String)
  | showImage (layer name : String)
  | playBgm (name : String)
  | playSe (name : String)
  | playMovie (name : String)
  /-- A pause, in seconds of single precision. -/
  | wait (seconds : Number.Binary)
  /-- Stops the story and offers choices. -/
  | branch (choices : List Choice)
  | jump (label : String)
  | jumpIf (var : String) (cmp : Comparison) (value label : String)
  | set (name value : String)
  | modify (name : String) (op : Operation) (value : String)
  /-- The place a jump goes to; does nothing itself. -/
  | label (name : String)
  | clearLayer (layer : String)
  /-- Calls a function of the host. -/
  | call (name : String) (args : List String)
  /-- Stands for the whole of another script. -/
  | inclusion (name : String)
  deriving DecidableEq

/-- The labels a command may jump to. -/
def Node.targets : Node → List String
  | .jump target => [target]
  | .jumpIf _ _ _ target => [target]
  | .branch choices => choices.map Choice.target
  | _ => []

end StoryPreview
