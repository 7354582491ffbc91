import StoryPreview.Files.Directory
import StoryPreview.Script.Parse
/-!
Included scripts. What an include name stands for is looked up in a finite table; a list of commands
is expanded by putting the commands of an included script in the place of its `INCLUDE`, and so on
inside it.
-/
namespace StoryPreview

/-- Why the text of an include could not be had. -/
inductive LoadError
  | unknownName (name : String)
  | file (reason : FileError)
  deriving DecidableEq

def LoadError.message : LoadError → String
  | .unknownName name => "no include named '" ++ name ++ "'"
  | .file reason => reason.message

/-- Why a script could not be compiled. -/
inductive CompileError
  /-- A line that is not a command, in an included script if `file` is given. -/
  | faulty (file : Option String) (fault : LineFault)
  | undefinedLabel (label : String)
  | duplicateLabel (label : String)
  | load (name : String) (reason : LoadError)
  | cycle (name : String)
  deriving DecidableEq

def CompileError.message : CompileError → String
  | .faulty file fault =>
    (file.elim "" fun name => name ++ ": ") ++ "line " ++ toString fault.line ++ ": " ++
      fault.fault.message
  | .undefinedLabel label => "Undefined label '" ++ label ++ "' referenced in scenario"
  | .duplicateLabel label => "Duplicate label '" ++ label ++ "'"
  | .load name reason => "Failed to load include '" ++ name ++ "': " ++ reason.message
  | .cycle name => "Include cycle: '" ++ name ++ "' includes itself"

/-- All errors of a compile in one text. -/
def CompileError.summary (errors : List CompileError) : String :=
  toString errors.length ++ " compile error(s): " ++
    String.intercalate "; " (errors.map CompileError.message)

/-- What include names stand for: scripts, each read once for all its inclusions. A name that is not
in the table is unknown. -/
structure Includes where
  entries : List (String × Except LoadError Script.Parsed)

namespace Includes

/-- Scripts by name. -/
def ofTexts (texts : List (String × String)) : Includes :=
  ⟨texts.map fun t => (t.1, .ok (Script.parse t.2))⟩

def load (inc : Includes) (name : String) : Except LoadError Script.Parsed :=
  match inc.entries.lookup name with
  | some outcome => outcome
  | none => .error (.unknownName name)

/-- A command of the expansion, or a reason why there is none. -/
abbrev Item := Except CompileError Node

/-- What one command contributes when the scripts named in `opened` are being included; `deeper`
expands the commands of an included script. -/
def visit (inc : Includes) (opened : List String)
    (deeper : List String → List Node → List Item) : Node → List Item
  | .inclusion name =>
    if name ∈ opened then [.error (.cycle name)]
    else match inc.load name with
      | .error reason => [.error (.load name reason)]
      | .ok (.error faults) => faults.map fun f => .error (.faulty (some name) f)
      | .ok (.ok nodes) => deeper (name :: opened) nodes
  | node => [.ok node]

/-- The items of a list of commands, scripts being opened no more than `depth` deep. -/
def itemsWithin (inc : Includes) : Nat → List String → List Node → List Item
  | 0, opened, nodes => nodes.flatMap (inc.visit opened fun _ _ => [])
  | depth + 1, opened, nodes => nodes.flatMap (inc.visit opened (itemsWithin inc depth))

/-- The items of a list of commands. Scripts open in one another have different names, so they are
never open deeper than there are names in the table. -/
def items (inc : Includes) (nodes : List Node) : List Item :=
  inc.itemsWithin inc.entries.length [] nodes

/-- The commands with every inclusion replaced, or every reason why that failed. -/
def expand (inc : Includes) (nodes : List Node) : Except (List CompileError) (List Node) :=
  Script.gather (inc.items nodes)

/-! ## What is loaded -/

/-- The names loaded for one command, when the scripts named in `opened` are being included. -/
def visitLoads (inc : Includes) (opened : List String)
    (deeper : List String → List Node → List String) : Node → List String
  | .inclusion name =>
    if name ∈ opened then []
    else name :: match inc.load name with
      | .ok (.ok nodes) => deeper (name :: opened) nodes
      | _ => []
  | _ => []

/-- The names loaded for a list of commands, scripts being opened no more than `depth` deep. -/
def loadsWithin (inc : Includes) : Nat → List String → List Node → List String
  | 0, opened, nodes => nodes.flatMap (inc.visitLoads opened fun _ _ => [])
  | depth + 1, opened, nodes => nodes.flatMap (inc.visitLoads opened (loadsWithin inc depth))

/-- The names that are loaded, one after another, to expand a list of commands. -/
def loads (inc : Includes) (nodes : List Node) : List String :=
  inc.loadsWithin inc.entries.length [] nodes

end Includes

namespace Script

/-- The names a script includes. -/
def includeNames (script : Parsed) : List String :=
  match script with
  | .ok nodes => nodes.filterMap fun
    | .inclusion name => some name
    | _ => none
  | .error _ => []

end Script

/-- What the include names of a script stand for when they are files below `root`: all names in the
script and in any file of the directory are looked up. -/
def Directory.includes (d : Directory) (root source : String) : Includes :=
  let texts := source :: d.files.filterMap fun f => f.2
  let names := texts.flatMap fun text => Script.includeNames (Script.parse text)
  ⟨names.eraseDups.map fun name =>
    (name, match d.read (Path.ofInclude root name) with
      | .ok text => .ok (Script.parse text)
      | .error reason => .error (.file reason))⟩

end StoryPreview
