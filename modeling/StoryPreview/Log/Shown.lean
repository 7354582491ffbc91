import StoryPreview.Story.Cursor
import StoryPreview.Text.Quoted
/-!
How the log shows commands and values: the name of the kind, and each part behind its name, texts
between quotes.
-/
namespace StoryPreview

namespace Shown

/-- Items between brackets. -/
def list (items : List String) : String := "[" ++ String.intercalate ", " items ++ "]"

/-- A kind with its parts. -/
def parts (kind : String) (fields : List (String × String)) : String :=
  kind ++ " \x7b " ++ String.intercalate ", " (fields.map fun f => f.1 ++ ": " ++ f.2) ++ " \x7d"

/-- A kind with one part. -/
def wrapped (kind part : String) : String := kind ++ "(" ++ part ++ ")"

/-- A part that may be missing. -/
def optional (shown : α → String) : Option α → String
  | none => "None"
  | some a => wrapped "Some" (shown a)

end Shown

def Operation.label : Operation → String
  | .add => "Add"
  | .subtract => "Subtract"
  | .multiply => "Multiply"
  | .divide => "Divide"

def Comparison.label : Comparison → String
  | .equal => "Equal"
  | .notEqual => "NotEqual"
  | .less => "LessThan"
  | .lessOrEqual => "LessThanOrEqual"
  | .greater => "GreaterThan"
  | .greaterOrEqual => "GreaterThanOrEqual"

open Shown (parts wrapped optional)
open Text (quoted)

def Value.shown : Value → String
  | .int n => wrapped "Int" (toString n)
  | .float x => wrapped "Float" (x.pointedText .double)
  | .bool b => wrapped "Bool" (if b then "true" else "false")
  | .text s => wrapped "Text" (quoted s)

def Choice.shown (c : Choice) : String :=
  parts "Choice" [("text", quoted c.text), ("target", quoted c.target)]

def Node.shown : Node → String
  | .say speaker text =>
    parts "Say" [("speaker", optional quoted speaker), ("text", quoted text)]
  | .showImage layer name => parts "ShowImage" [("layer", quoted layer), ("name", quoted name)]
  | .playBgm name => parts "PlayBgm" [("name", quoted name)]
  | .playSe name => parts "PlaySe" [("name", quoted name)]
  | .playMovie name => parts "PlayMovie" [("name", quoted name)]
  | .wait seconds => parts "Wait" [("seconds", seconds.pointedText .single)]
  | .branch choices => parts "Branch" [("choices", Shown.list (choices.map Choice.shown))]
  | .jump target => parts "Jump" [("label", quoted target)]
  | .jumpIf var cmp value target =>
    parts "JumpIf" [("var", quoted var), ("cmp", cmp.label), ("value", quoted value),
      ("label", quoted target)]
  | .set name value => parts "Set" [("name", quoted name), ("value", quoted value)]
  | .modify name op value =>
    parts "Modify" [("name", quoted name), ("op", op.label), ("value", quoted value)]
  | .label name => parts "Label" [("name", quoted name)]
  | .clearLayer layer => parts "ClearLayer" [("layer", quoted layer)]
  | .call name args =>
    parts "Call" [("name", quoted name), ("args", Shown.list (args.map quoted))]
  | .inclusion name => parts "Include" [("name", quoted name)]

end StoryPreview
