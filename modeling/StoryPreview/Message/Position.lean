import StoryPreview.Json.Record
import StoryPreview.Text.Blank
import StoryPreview.Text.Lines
import StoryPreview.Text.Quoted
/-!
Places in the edited document, and how a request to go to one is resolved. Lines and columns count
from one, and columns count characters.
-/
namespace StoryPreview

structure Position where
  line : Nat
  column : Nat
  deriving DecidableEq

/-- Where to go: a line, or the first place where a text stands. -/
inductive JumpTarget
  | line (line : Nat)
  | text (text : String)
  deriving DecidableEq

/-- Why there is no such place. -/
inductive NavigationError
  | textNotFound (text : String)
  | lineOutOfRange (line lines : Nat)
  deriving DecidableEq

def NavigationError.message : NavigationError → String
  | .textNotFound text => "text not found: " ++ Text.quoted text
  | .lineOutOfRange line lines =>
    "line " ++ toString line ++ " is outside the document (" ++ toString lines ++ " lines)"

/-- How many characters of the text stand before the first place where `needle` occurs. -/
def Text.indexOf? (needle : List Char) : List Char → Option Nat
  | [] => if needle = [] then some 0 else none
  | c :: cs =>
    if needle.isPrefixOf (c :: cs) then some 0
    else (indexOf? needle cs).map (· + 1)

/-- The first place of a text among lines, the first of which is line `n`. -/
def Position.find? (needle : List Char) (n : Nat) : List (List Char) → Option Position
  | [] => none
  | line :: rest =>
    match Text.indexOf? needle line with
    | some offset => some ⟨n, offset + 1⟩
    | none => find? needle (n + 1) rest

/-- The place in a document that a target names. A text is looked for without the blanks around it,
within single lines. -/
def JumpTarget.resolve (document : String) : JumpTarget → Except NavigationError Position
  | .line n =>
    let count := (Text.lines document.toList).length
    if n = 0 || count < n then .error (.lineOutOfRange n count) else .ok ⟨n, 1⟩
  | .text s =>
    let needle := Text.trim s.toList
    let found := if needle = [] then none else Position.find? needle 1 (Text.lines document.toList)
    match found with
    | some position => .ok position
    | none => .error (.textNotFound s)

/-- The text that is looked for and not found, if that is why a target names no place. -/
def JumpTarget.missing? (document : String) (target : JumpTarget) : Option String :=
  match target, target.resolve document with
  | .text s, .error _ =>
    let needle := Text.trim s.toList
    if needle = [] then none else some (String.ofList needle)
  | _, _ => none

/-! ## JSON forms -/

open Json (record? required)

def Position.toJson (p : Position) : Json :=
  .object [("line", .nat p.line), ("column", .nat p.column)]

def Position.ofJson? (v : Json) : Option Position := do
  match ← record? ["line", "column"] v with
  | [line, column] => return ⟨← required Json.asNat? line, ← required Json.asNat? column⟩
  | _ => none

def JumpTarget.toJson : JumpTarget → Json
  | .line n => .object [("line", .nat n)]
  | .text s => .object [("text", .text s)]

/-- Reads a field of an object in which it stands once. -/
def Json.soleField? (name : String) (read : Json → Option α) : Json → Option α
  | .object fields =>
    match Json.values name fields with
    | [v] => read v
    | _ => none
  | _ => none

/-- Reads a target: a line if that can be read, or else a text. -/
def JumpTarget.ofJson? (v : Json) : Option JumpTarget :=
  ((v.soleField? "line" Json.asNat?).map .line).or ((v.soleField? "text" Json.asText?).map .text)

end StoryPreview
