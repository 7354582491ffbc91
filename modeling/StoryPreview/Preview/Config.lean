import StoryPreview.Files.Path
import StoryPreview.Json.Reader
import StoryPreview.Json.Record
import StoryPreview.Log.Filter
/-!
Settings of a preview, and how they are read from JSON. What is not given keeps its default.
-/
namespace StoryPreview

structure Config where
  /-- Where include names are looked up; by default in the directory of the script. -/
  includeRoot : Option String
  liveUpdate : Bool
  /-- The budget of commands for one run of a story. -/
  maxSteps : Nat
  /-- How often the script file is looked at, in milliseconds. -/
  pollIntervalMs : Nat
  log : LogFilter
  deriving DecidableEq

namespace LogLevel

def ofName? : String → Option LogLevel
  | "trace" => some .trace
  | "debug" => some .debug
  | "info" => some .info
  | "warn" => some .warn
  | "error" => some .error
  | _ => none

end LogLevel

namespace LogCategory

def ofName? : String → Option LogCategory
  | "runtime" => some .runtime
  | "session" => some .session
  | "bridge" => some .bridge
  | "compiler" => some .compiler
  | "cli" => some .cli
  | _ => none

end LogCategory

open Json (record? nullable defaulted list?)

/-- Reads a name that stands for a value. -/
def Json.named? (ofName? : String → Option α) (v : Json) : Option α :=
  (v.name? .plain).bind ofName?

def LogFilter.ofJson? (v : Json) : Option LogFilter := do
  match ← record? ["enabled", "level", "categories"] v with
  | [enabled, level, categories] =>
    return {
      enabled := ← defaulted default.enabled Json.asBool? enabled
      level := ← defaulted default.level (Json.named? LogLevel.ofName?) level
      categories := ← defaulted default.categories
        (list? (Json.named? LogCategory.ofName?)) categories }
  | _ => none

namespace Config

def default : Config := ⟨none, true, 10000, 250, .default⟩

def ofJson? (v : Json) : Option Config := do
  match ← record? ["include_root", "live_update", "max_steps", "poll_interval_ms", "log"] v with
  | [root, live, steps, poll, log] =>
    return {
      includeRoot := ← nullable Json.asText? root
      liveUpdate := ← defaulted default.liveUpdate Json.asBool? live
      maxSteps := ← defaulted default.maxSteps Json.asNat? steps
      pollIntervalMs := ← defaulted default.pollIntervalMs Json.asNat? poll
      log := ← defaulted default.log LogFilter.ofJson? log }
  | _ => none

/-- Reads settings from a text; what is unknown in it only has to be well formed. -/
def ofText? (json : String) : Option Config := (Json.read? json).bind ofJson?

/-- The directory in which the includes of a script are looked up. -/
def includeRootFor (c : Config) (script : String) : String :=
  c.includeRoot.getD (Path.includeRoot script)

/-- The time between two looks at the script file, in milliseconds. -/
def pollInterval (c : Config) : Nat := max c.pollIntervalMs 10

end Config

end StoryPreview
