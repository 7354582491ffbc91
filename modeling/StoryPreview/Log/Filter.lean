/-!
Which records of the log are written: those of a level and of a category that the filter lets
through.
-/
namespace StoryPreview

inductive LogLevel
  | trace
  | debug
  | info
  | warn
  | error
  deriving DecidableEq

namespace LogLevel

/-- The greater, the more severe. -/
def severity : LogLevel → Nat
  | .trace => 0
  | .debug => 1
  | .info => 2
  | .warn => 3
  | .error => 4

def label : LogLevel → String
  | .trace => "TRACE"
  | .debug => "DEBUG"
  | .info => "INFO"
  | .warn => "WARN"
  | .error => "ERROR"

end LogLevel

/-- The part of the program that a record is about. -/
inductive LogCategory
  /-- Running a story. -/
  | runtime
  /-- Action log, replay and rewind. -/
  | session
  /-- Messages to and from the display. -/
  | bridge
  /-- Reading scripts, includes and recompiles. -/
  | compiler
  /-- The command line. -/
  | cli
  deriving DecidableEq

namespace LogCategory

def all : List LogCategory := [.runtime, .session, .bridge, .compiler, .cli]

def label : LogCategory → String
  | .runtime => "Runtime"
  | .session => "Session"
  | .bridge => "Bridge"
  | .compiler => "Compiler"
  | .cli => "Cli"

/-- What follows a beginning, if the text has it. -/
def stripStart? : List Char → List Char → Option (List Char)
  | [], cs => some cs
  | _ :: _, [] => none
  | a :: as, c :: cs => if a = c then stripStart? as cs else none

/-- The text without the double colons it starts with. -/
def stripColons : List Char → List Char
  | ':' :: ':' :: cs => stripColons cs
  | cs => cs

/-- The text up to the first double colon. -/
def beforeColons : List Char → List Char
  | ':' :: ':' :: _ => []
  | c :: cs => c :: beforeColons cs
  | [] => []

/-- The category of a part of the program, by its name. -/
def ofPart (part : List Char) : LogCategory :=
  match String.ofList part with
  | "runtime" => .runtime
  | "session" | "preview" => .session
  | "bridge" | "navigation" => .bridge
  | "parser" | "compiler" | "recompile" => .compiler
  | _ => .cli

/-- The category of the target of a record, names parted by double colons; none for the target of
another program. -/
def ofTarget? (target : String) : Option LogCategory :=
  match stripStart? "utsushi".toList target.toList with
  | none => none
  | some [] => some .cli
  | some (':' :: ':' :: path) => some (ofPart (beforeColons (stripColons path)))
  | some _ => none

end LogCategory

/-- Which records are written. -/
structure LogFilter where
  enabled : Bool
  level : LogLevel
  categories : List LogCategory
  deriving DecidableEq

namespace LogFilter

/-- Nothing is written; once enabled, everything but what concerns running stories. -/
def default : LogFilter := ⟨false, .debug, [.session, .bridge, .compiler, .cli]⟩

/-- Everything. -/
def verbose : LogFilter := ⟨true, .trace, LogCategory.all⟩

def allows (f : LogFilter) (level : LogLevel) (category : LogCategory) : Bool :=
  f.enabled && f.level.severity ≤ level.severity && f.categories.contains category

/-- A record as a line of the log; the category fills ten columns. -/
def line (level : LogLevel) (category : LogCategory) (text : String) : String :=
  let padding := String.ofList (List.replicate (10 - category.label.length) ' ')
  "[" ++ level.label ++ "] " ++ category.label ++ padding ++ " " ++ text ++ "\n"

end LogFilter

end StoryPreview
