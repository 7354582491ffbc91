/-!
The command line: what the arguments ask for.
-/
namespace StoryPreview

/-- How a script is previewed: in the terminal, or for an editor that speaks JSON lines. -/
inductive Mode
  | play
  | serve
  deriving DecidableEq

def Mode.name : Mode → String
  | .play => "play"
  | .serve => "serve"

structure Options where
  mode : Mode
  script : String
  config : Option String
  debug : Bool
  deriving DecidableEq

/-- Why the arguments make no sense. -/
inductive UsageError
  | unknownCommand (name : String)
  | missingConfig
  | unknownOption (flag : String)
  | unexpectedArgument (arg : String)
  | missingScript
  deriving DecidableEq

def UsageError.message : UsageError → String
  | .unknownCommand name => "Unknown command '" ++ name ++ "'"
  | .missingConfig => "Missing value for --config"
  | .unknownOption flag => "Unknown option '" ++ flag ++ "'"
  | .unexpectedArgument arg => "Unexpected argument '" ++ arg ++ "'"
  | .missingScript => "Missing script file path"

inductive Invocation
  /-- No argument at all. -/
  | nothing
  | help
  | preview (o : Options)
  deriving DecidableEq

namespace Invocation

/-- What has been read of the options. -/
structure Partial where
  script : Option String
  config : Option String
  debug : Bool

/-- Reads the arguments behind the command, from left to right. -/
def readOptions (mode : Mode) (p : Partial) : List String → Except UsageError Options
  | [] =>
    match p.script with
    | some script => .ok ⟨mode, script, p.config, p.debug⟩
    | none => .error .missingScript
  | "--debug" :: args => readOptions mode { p with debug := true } args
  | ["--config"] => .error .missingConfig
  | "--config" :: path :: args => readOptions mode { p with config := some path } args
  | arg :: args =>
    if ['-', '-'].isPrefixOf arg.toList then .error (.unknownOption arg)
    else if p.script.isNone then readOptions mode { p with script := some arg } args
    else .error (.unexpectedArgument arg)

/-- Reads the arguments of the program. -/
def ofArgs : List String → Except UsageError Invocation
  | [] => .ok .nothing
  | "play" :: args => (readOptions .play ⟨none, none, false⟩ args).map .preview
  | "serve" :: args => (readOptions .serve ⟨none, none, false⟩ args).map .preview
  | "--help" :: _ => .ok .help
  | "-h" :: _ => .ok .help
  | name :: _ => .error (.unknownCommand name)

end Invocation

/-- The environment variable that turns the log on. -/
def debugVariable : String := "UTSUSHI_DEBUG"

/-- Lines of text. -/
def textLines (ls : List String) : String := String.join (ls.map (· ++ "\n"))

def usage : String := textLines [
  "utsushi - Live preview for narrative scripts",
  "",
  "USAGE:",
  "    utsushi play <script.md> [--config <file>] [--debug]",
  "    utsushi serve <script.md> [--config <file>] [--debug]",
  "",
  "COMMANDS:",
  "    play <file>     Preview the script in the terminal, reloading on save",
  "    serve <file>    Speak the preview protocol as JSON lines on stdin/stdout",
  "    --help, -h      Show this help message",
  "",
  "OPTIONS:",
  "    --config <file>    JSON configuration (see PreviewConfig)",
  "    --debug            Log everything to stderr and show state details",
  "",
  "ENVIRONMENT:",
  "    " ++ debugVariable ++ "    Enable logging to stderr",
  "",
  "EXAMPLES:",
  "    utsushi play scenarios/intro.md",
  "    utsushi serve scenarios/intro.md --config preview.json"]

end StoryPreview
